import ChainDiagram.Compile
import ChainDiagram.Proofs.Draft

/-!
# When a diagram is refused

`compile` answers the first error that it meets, and it meets errors at two times: while it reads
the lines, and after the last of them, when it looks for variables that are declared nowhere. Which
error that is can be said without running anything, and so can it when there is none.

## What is here

* `significantLines_eq_filterMap`: the lines carry their numbers in the source, from one.
* `SourceLine.Refused`: why a line is refused after the lines before it.
* `foldlM_readLine_eq_ok`, `foldlM_readLine_eq_error`: how the reading of the lines ends.
* `Faulty`: what is wrong with a diagram. `compile` fails with exactly that.
-/

set_option autoImplicit false

namespace ChainDiagram

/-! ## Lines -/

/-- Every line is counted, whether it says something or not. -/
theorem significantLines_eq_filterMap (number : Nat) (raws : List Line) :
    significantLines number raws =
      (raws.zipIdx number).filterMap fun (raw, number) => SourceLine.ofRaw? number raw := by
  induction raws generalizing number with
  | nil => rfl
  | cons raw raws ih =>
    rw [significantLines, ih, List.zipIdx_cons, List.filterMap_cons]
    cases h : SourceLine.ofRaw? number raw <;> simp [h]

/-- What a line says, if it is a statement. -/
def SourceLine.entry? (line : SourceLine) : Option Entry :=
  (Statement.read line.text).toOption.map (⟨line.number, ·⟩)

/-- What some lines say. -/
def entriesOf (lines : List SourceLine) : List Entry := lines.filterMap SourceLine.entry?

theorem SourceLine.entry?_eq_some_iff {line : SourceLine} {entry : Entry} :
    line.entry? = some entry ↔
      entry.line = line.number ∧ Statement.read line.text = .ok entry.statement := by
  obtain ⟨number, statement⟩ := entry
  rw [SourceLine.entry?]
  cases Statement.read line.text with
  | error failure => simp [Except.toOption]
  | ok other => simp [Except.toOption, eq_comm]

theorem entriesOf_concat {lines : List SourceLine} {line : SourceLine} {statement : Statement}
    (h : Statement.read line.text = .ok statement) :
    entriesOf (lines ++ [line]) = entriesOf lines ++ [⟨line.number, statement⟩] := by
  have hentry : line.entry? = some ⟨line.number, statement⟩ :=
    SourceLine.entry?_eq_some_iff.2 ⟨rfl, h⟩
  rw [entriesOf, List.filterMap_append, ← entriesOf]
  simp [hentry]

theorem exists_read_of_mem_entriesOf {lines : List SourceLine} {entry : Entry}
    (h : entry ∈ entriesOf lines) :
    ∃ line ∈ lines, Statement.read line.text = .ok entry.statement := by
  obtain ⟨line, hline, hentry⟩ := List.mem_filterMap.1 h
  exact ⟨line, hline, (SourceLine.entry?_eq_some_iff.1 hentry).2⟩

/-- Why a line is refused after the lines before it, and the error that it gets. -/
inductive SourceLine.Refused (before : List SourceLine) (line : SourceLine) : Diagnostic → Prop
  /-- It is no statement. -/
  | syntaxError {failure : Failure Fault} (hread : Statement.read line.text = .error failure) :
    Refused before line
      (.syntaxError line.number (line.column failure.pos) failure.fault.message)
  /-- It is a statement, but it does not fit what has been said before. -/
  | statement {statement : Statement} {e : Diagnostic}
    (hread : Statement.read line.text = .ok statement)
    (hrefused : statement.Refused (entriesOf before) line.number e) : Refused before line e

/-- A line is refused after the lines before it. -/
def SourceLine.Bad (before : List SourceLine) (line : SourceLine) : Prop :=
  ∃ e, line.Refused before e

/-! ## Reading the lines -/

section Reading

variable {d : Draft} {lines : List SourceLine} {line : SourceLine}

/-- **A line that is not refused is recorded.** -/
theorem Draft.Records.readLine (h : d.Records (entriesOf lines)) (hline : ¬line.Bad lines) :
    ∃ d', d.readLine line = .ok d' ∧ d'.Records (entriesOf (lines ++ [line])) := by
  cases hread : Statement.read line.text with
  | error failure => exact absurd ⟨_, .syntaxError hread⟩ hline
  | ok statement =>
    obtain ⟨d', hd', hrecords⟩ := h.add (Statement.writable_of_read hread)
      (fun e he => hline ⟨e, .statement hread he⟩)
    refine ⟨d', ?_, ?_⟩
    · simp only [Draft.readLine, hread, hd']
    · rwa [entriesOf_concat hread]

/-- **A line that is refused gets its error.** -/
theorem Draft.Records.readLine_of_refused (h : d.Records (entriesOf lines)) {e : Diagnostic}
    (hrefused : line.Refused lines e) : d.readLine line = .error e := by
  cases hrefused with
  | syntaxError hread => simp only [Draft.readLine, hread]
  | statement hread hrefused =>
    obtain ⟨d', hd'⟩ := h.add_of_refused (Statement.writable_of_read hread) hrefused
    simp only [Draft.readLine, hread, hd']

/-- **If no line is refused, all of them are recorded.** The induction is on the lines from the last
one back, since each is judged by those before it. -/
theorem foldlM_readLine_eq_ok (h : NoneBad SourceLine.Bad lines) :
    ∃ d, lines.foldlM Draft.readLine .empty = .ok d ∧ d.Records (entriesOf lines) := by
  induction lines using List.reverseRecOn with
  | nil => exact ⟨.empty, rfl, Draft.records_empty⟩
  | append_singleton lines line ih =>
    obtain ⟨hlines, hline⟩ := noneBad_concat_iff.1 h
    obtain ⟨d, hd, hrecords⟩ := ih hlines
    obtain ⟨d', hd', hrecords'⟩ := hrecords.readLine hline
    refine ⟨d', ?_, hrecords'⟩
    rw [List.foldlM_append, hd]
    show List.foldlM Draft.readLine d [line] = .ok d'
    rw [List.foldlM_cons, hd']
    rfl

/-- **The first line that is refused ends the reading**, whatever lines follow. -/
theorem foldlM_readLine_eq_error {before : List SourceLine} {e : Diagnostic}
    (hfirst : FirstBad SourceLine.Bad lines before line) (hrefused : line.Refused before e) :
    lines.foldlM Draft.readLine .empty = .error e := by
  obtain ⟨⟨after, rfl⟩, hbefore, -⟩ := hfirst
  obtain ⟨d, hd, hrecords⟩ := foldlM_readLine_eq_ok hbefore
  rw [List.foldlM_append, hd]
  show List.foldlM Draft.readLine d (line :: after) = .error e
  rw [List.foldlM_cons, hrecords.readLine_of_refused hrefused]
  rfl

end Reading

/-! ## Compiling -/

/-- What is wrong with the lines of a diagram. -/
inductive Faulty (lines : List SourceLine) : Diagnostic → Prop
  /-- A line is refused, and no line before it is. -/
  | line {before : List SourceLine} {line : SourceLine} {e : Diagnostic}
    (hfirst : FirstBad SourceLine.Bad lines before line) (hrefused : line.Refused before e) :
    Faulty lines e
  /-- No line is refused, but a variable is used that no line declares. -/
  | undeclared {before : List (String × Nat)} {name : String} {number : Nat}
    (hlines : NoneBad SourceLine.Bad lines)
    (hfirst : FirstBad (Undeclared (entriesOf lines)) (referencesOf (entriesOf lines)) before
      (name, number)) : Faulty lines (.undefinedVariable number name)

/-- Nothing is wrong with the lines of a diagram. -/
structure Faultless (lines : List SourceLine) : Prop where
  noneBad : NoneBad SourceLine.Bad lines
  declared : ∀ use ∈ referencesOf (entriesOf lines),
    Declared (declarationsOf (entriesOf lines)) use.1

theorem faultless_or_faulty (lines : List SourceLine) :
    Faultless lines ∨ ∃ e, Faulty lines e := by
  rcases noneBad_or_firstBad SourceLine.Bad lines with hlines | ⟨before, line, hfirst⟩
  · rcases noneBad_or_firstBad (Undeclared (entriesOf lines)) (referencesOf (entriesOf lines)) with
      hdeclared | ⟨before, ⟨name, number⟩, hfirst⟩
    · exact .inl ⟨hlines, noneBad_undeclared_iff.1 hdeclared⟩
    · exact .inr ⟨_, .undeclared hlines hfirst⟩
  · obtain ⟨e, he⟩ := hfirst.bad
    exact .inr ⟨e, .line hfirst he⟩

section Compile

variable {source : String}

/-- A diagram with nothing wrong is recorded, and then drawn. -/
theorem Faultless.compile (h : Faultless (sourceLines source)) :
    ∃ d : Draft, d.Records (entriesOf (sourceLines source)) ∧ compile source =
      .ok (drawn (Draft.shown d.bindings) (walkOf (mentionsOf (entriesOf (sourceLines source))))
        (arcsOf (mentionsOf (entriesOf (sourceLines source))))) := by
  obtain ⟨d, hd, hrecords⟩ := foldlM_readLine_eq_ok h.noneBad
  refine ⟨d, hrecords, ?_⟩
  rw [ChainDiagram.compile, hd, ← hrecords.graph_eq_ok (noneBad_undeclared_iff.2 h.declared)]
  rfl

theorem Faulty.compile {e : Diagnostic} (h : Faulty (sourceLines source) e) :
    compile source = .error e := by
  rw [ChainDiagram.compile]
  cases h with
  | line hfirst hrefused =>
    rw [foldlM_readLine_eq_error hfirst hrefused]
    rfl
  | undeclared hlines hfirst =>
    obtain ⟨d, hd, hrecords⟩ := foldlM_readLine_eq_ok hlines
    rw [hd, ← hrecords.graph_eq_error hfirst]
    rfl

theorem faultless_of_compile {g : Graph} (h : compile source = .ok g) :
    Faultless (sourceLines source) := by
  rcases faultless_or_faulty (sourceLines source) with hfaultless | ⟨e, he⟩
  · exact hfaultless
  · rw [he.compile] at h
    cases h

theorem faulty_of_compile {e : Diagnostic} (h : compile source = .error e) :
    Faulty (sourceLines source) e := by
  rcases faultless_or_faulty (sourceLines source) with hfaultless | ⟨e', he'⟩
  · obtain ⟨d, -, hd⟩ := hfaultless.compile
    rw [hd] at h
    cases h
  · obtain rfl := Except.error.inj (he'.compile.symm.trans h)
    exact he'

/-- Two lines declare one name, and the number is that of the later line. -/
def DeclaredTwice (lines : List SourceLine) (number : Nat) (name : String) : Prop :=
  ∃ before line after earlier value value', lines = before ++ line :: after ∧
    earlier ∈ before ∧ line.number = number ∧
      Statement.read earlier.text = .ok (.declaration ⟨name, value⟩) ∧
        Statement.read line.text = .ok (.declaration ⟨name, value'⟩)

theorem Faulty.declaredTwice {lines : List SourceLine} {number : Nat} {name : String}
    (h : Faulty lines (.duplicateDeclaration number name)) : DeclaredTwice lines number name := by
  cases h with
  | @line before line _ hfirst hrefused =>
    obtain ⟨after, hlines⟩ := hfirst.exists_eq_append
    cases hrefused with
    | statement hread hrefused =>
      cases hrefused with
      | @duplicate declaration hold =>
        obtain ⟨other, hother, hname⟩ := hold
        obtain ⟨entry, hentry, hstatement⟩ := exists_entry_of_mem_declarationsOf hother
        obtain ⟨earlier, hearlier, hread'⟩ := exists_read_of_mem_entriesOf hentry
        rw [hstatement] at hread'
        exact ⟨before, line, after, earlier, other.value, declaration.value, hlines, hearlier, rfl,
          hname ▸ hread', hread⟩

/-- **The failures of `compile` are exact.** It fails with what is wrong with the lines, and it
answers a graph exactly if nothing is wrong with them. The first line that is refused decides,
whatever follows it, and only if there is none, the first variable that is declared on no line; a
literal declares none. A name is refused only where two lines declare it, whatever literals there
are, and lines carry their numbers in the source. -/
theorem compile_fails_exactly (source : String) :
    (∀ e, compile source = .error e ↔ Faulty (sourceLines source) e) ∧
    ((∃ g, compile source = .ok g) ↔ Faultless (sourceLines source)) ∧
    (∀ number name, compile source = .error (.duplicateDeclaration number name) →
      DeclaredTwice (sourceLines source) number name) ∧
    sourceLines source = ((source.toList.splitOn '\n').zipIdx 1).filterMap
      fun (raw, number) => SourceLine.ofRaw? number raw := by
  have hfaulty : ∀ e, compile source = .error e ↔ Faulty (sourceLines source) e :=
    fun e => ⟨faulty_of_compile, Faulty.compile⟩
  refine ⟨hfaulty, ⟨fun ⟨g, hg⟩ => faultless_of_compile hg, fun h => ?_⟩,
    fun number name h => ((hfaulty _).1 h).declaredTwice, significantLines_eq_filterMap 1 _⟩
  obtain ⟨d, -, hd⟩ := h.compile
  exact ⟨_, hd⟩

/-- A variable is declared again two lines below. -/
theorem compile_fails_exactly_again :
    compile "a := \"x\"\n\na := \"y\"" = .error (.duplicateDeclaration 3 "a") ∧
      DeclaredTwice (sourceLines "a := \"x\"\n\na := \"y\"") 3 "a" := by
  have hlines : sourceLines "a := \"x\"\n\na := \"y\"" =
      [⟨1, 0, "a := \"x\"".toList⟩, ⟨3, 0, "a := \"y\"".toList⟩] := by rfl
  have hfirst : Statement.read "a := \"x\"".toList = .ok (.declaration ⟨"a", "x"⟩) := by cbv
  have hsecond : Statement.read "a := \"y\"".toList = .ok (.declaration ⟨"a", "y"⟩) := by cbv
  have h : compile "a := \"x\"\n\na := \"y\"" = .error (.duplicateDeclaration 3 "a") := by
    rw [compile, hlines]
    simp only [List.foldlM_cons, Draft.readLine, hfirst, hsecond]
    rfl
  exact ⟨h, (compile_fails_exactly _).2.2.1 3 "a" h⟩

end Compile

end ChainDiagram
