import ChainDiagram.Proofs.Comment

/-!
# Lines that move

What a diagram means does not depend on where its lines stand; where its errors are reported does.
If each line gets another number and moves some characters to the right, the graph is the same, and
an error moves with its line. The numbers of lines go into every table of a draft and into every
error, so this is followed through each step of the compiler.

That is all that whitespace around a line, blank lines, comments on lines of their own and other
line ends can do to a text.

## What is here

* `Shift`: how lines move, with `SourceLine.shift` and `Diagnostic.shift`.
* `Draft.shift`: a draft that has taken its statements from the moved lines. Each step commutes with
  moving (`Draft.add_shift`, `Draft.graph_shift`), and so does the whole (`Draft.finish_shift`).
* `compile_surrounded`, `compile_withReturns`, `compile_inserted`: the three changes to a text.
* `compile_moves_errors`: the three of them together.
-/

set_option autoImplicit false

namespace ChainDiagram

/-! ## Moving -/

/-- How the lines of a text move, by their old numbers. -/
structure Shift where
  /-- The new number of a line. -/
  row : Nat → Nat
  /-- The number of characters that are put in front of a line. -/
  right : Nat → Nat

/-- One line gets some characters more in front. -/
def Shift.indent (number count : Nat) : Shift :=
  ⟨id, fun line => if line = number then count else 0⟩

/-- The lines from a number on make room for one line more. -/
def Shift.down (number : Nat) : Shift :=
  ⟨fun line => if number ≤ line then line + 1 else line, fun _ => 0⟩

/-- The error in the line that has moved. Only a syntax error has a column. -/
def Diagnostic.shift (s : Shift) : Diagnostic → Diagnostic
  | syntaxError line column message => syntaxError (s.row line) (column + s.right line) message
  | duplicateDeclaration line name => duplicateDeclaration (s.row line) name
  | undefinedVariable line name => undefinedVariable (s.row line) name
  | literalCollision line text => literalCollision (s.row line) text

/-- The line that has moved. -/
def SourceLine.shift (s : Shift) (line : SourceLine) : SourceLine :=
  { line with number := s.row line.number, indent := line.indent + s.right line.number }

/-- The kind of an error does not move. -/
@[simp] theorem Diagnostic.code_shift (s : Shift) (e : Diagnostic) : (e.shift s).code = e.code := by
  cases e <;> rfl

theorem SourceLine.column_shift (s : Shift) (line : SourceLine) (pos : Nat) :
    (line.shift s).column pos = line.column pos + s.right line.number := by
  simp only [shift, column]
  omega

/-- If each step of a run commutes with a change of its state and its errors, so does the run. -/
theorem foldlM_map_eq {ε σ τ α β : Type} {step : σ → α → Except ε σ} {step' : τ → β → Except ε τ}
    {state : σ → τ} {item : α → β} {error : ε → ε}
    (hstep : ∀ d a, step' (state d) (item a) = ((step d a).map state).mapError error) (l : List α)
    (d : σ) :
    (l.map item).foldlM step' (state d) = ((l.foldlM step d).map state).mapError error := by
  induction l generalizing d with
  | nil => rfl
  | cons a l ih =>
    rw [List.map_cons, List.foldlM_cons, List.foldlM_cons, hstep]
    cases step d a with
    | error e => rfl
    | ok d' => exact ih d'

/-- The same for a change of the errors alone. -/
theorem foldlM_map_eq_mapError {ε σ α β : Type} {step : σ → α → Except ε σ}
    {step' : σ → β → Except ε σ} {item : α → β} {error : ε → ε}
    (hstep : ∀ d a, step' d (item a) = (step d a).mapError error) (l : List α) (d : σ) :
    (l.map item).foldlM step' d = (l.foldlM step d).mapError error := by
  have hid : ∀ x : Except ε σ, x.map id = x := fun x => by cases x <;> rfl
  have h : (l.map item).foldlM step' (id d) = ((l.foldlM step d).map id).mapError error := by
    refine foldlM_map_eq (fun d a => ?_) l d
    rw [hid]
    exact hstep d a
  rwa [hid] at h

/-! ## Tables that are filled from moved lines -/

def LinkRow.shift (s : Shift) (row : LinkRow) : LinkRow :=
  ⟨row.source, s.row row.line, row.destinations.map (Prod.map id s.row)⟩

def LinkTable.shift (s : Shift) (table : LinkTable) : LinkTable :=
  ⟨table.rows.map (LinkRow.shift s), table.index⟩

/-- The draft of the same statements, taken from the lines that have moved. -/
def Draft.shift (s : Shift) (d : Draft) : Draft :=
  ⟨d.bindings, d.links.shift s, d.uses.map (Prod.map id s.row)⟩

namespace LinkTable

variable (s : Shift) (table : LinkTable) (source : NodeKey) (line : Nat)

/-- The rows move, and each stays where it is in the table. -/
theorem sourceSlot_shift :
    (table.shift s).sourceSlot source (s.row line) =
      ((table.sourceSlot source line).1, (table.sourceSlot source line).2.shift s) := by
  have hslot : (table.shift s).slot? source = table.slot? source := rfl
  cases h : table.slot? source with
  | some slot => rw [sourceSlot_of_some (hslot.trans h), sourceSlot_of_some h]
  | none =>
    rw [sourceSlot_of_none (hslot.trans h), sourceSlot_of_none h]
    simp [shift, LinkRow.shift]

theorem modify_map_shift (destination : NodeKey) (slot : Nat) (rows : List LinkRow) :
    (rows.map (LinkRow.shift s)).modify slot (·.addDestination destination (s.row line)) =
      (rows.modify slot (·.addDestination destination line)).map (LinkRow.shift s) := by
  have hrow : ∀ row : LinkRow, (row.shift s).addDestination destination (s.row line) =
      (row.addDestination destination line).shift s := fun row => by
    simp [LinkRow.shift, LinkRow.addDestination]
  refine List.ext_getElem? fun i => ?_
  rw [List.getElem?_map, List.getElem?_modify, List.getElem?_modify, List.getElem?_map]
  cases rows[i]? with
  | none => rfl
  | some row => by_cases h : slot = i <;> simp [h, hrow]

theorem addLink?_shift (destination : NodeKey) :
    (table.shift s).addLink? source destination (s.row line) =
      (table.addLink? source destination line).map (shift s) := by
  simp only [addLink?, sourceSlot_shift]
  generalize (table.sourceSlot source line).2 = found
  have hlength : (found.shift s).rows.length = found.rows.length := List.length_map _
  rw [hlength]
  split
  · exact congrArg (fun rows => some (LinkTable.mk rows found.index))
      (modify_map_shift s line destination _ found.rows)
  · rfl

theorem addLink_shift (destination : NodeKey) :
    (table.shift s).addLink source destination (s.row line) =
      (table.addLink source destination line).shift s := by
  rw [addLink, addLink, addLink?_shift]
  cases table.addLink? source destination line <;> rfl

theorem addSource_shift :
    (table.shift s).addSource source (s.row line) = (table.addSource source line).shift s :=
  congrArg Prod.snd (table.sourceSlot_shift s source line)

end LinkTable

namespace Draft

variable (s : Shift)

@[simp] theorem bindings_shift (d : Draft) : (d.shift s).bindings = d.bindings := rfl

theorem addLinks_shift (line : Nat) (table : LinkTable) (keys : List NodeKey)
    (arrows : List Arrow) :
    addLinks (s.row line) (table.shift s) keys arrows =
      (addLinks line table keys arrows).shift s := by
  unfold addLinks
  split
  · exact table.addSource_shift s _ line
  · generalize (adjacentPairs keys).zip arrows = links
    induction links generalizing table with
    | nil => rfl
    | cons link links ih =>
      rw [List.foldl_cons, List.foldl_cons, ← ih]
      exact congrArg (List.foldl _ · links) (table.addLink_shift s _ line _)

/-! ## Steps that commute with moving -/

theorem addUse_shift (d : Draft) (line : Nat) (name : String) :
    (d.shift s).addUse (s.row line) name = (d.addUse line name).shift s := by
  have hnames : (d.shift s).uses.map Prod.fst = d.uses.map Prod.fst := by
    rw [shift, List.map_map]
    rfl
  unfold addUse
  rw [hnames]
  split
  · rfl
  · simp [shift]

/-- What becomes of a step of a draft: its error and the draft move. -/
def shiftStep (step : Except Diagnostic Unit × Draft) : Except Diagnostic Unit × Draft :=
  (step.1.mapError (Diagnostic.shift s), step.2.shift s)

theorem addDeclaration_shift (d : Draft) (line : Nat) (declaration : Declaration) :
    (d.shift s).addDeclaration (s.row line) declaration =
      shiftStep s (d.addDeclaration line declaration) := by
  rw [addDeclaration, addDeclaration, bindings_shift]
  cases d.bindings.bindNew? declaration.name declaration.value <;> rfl

theorem addElement_shift (d : Draft) (line : Nat) (element : Element) :
    (d.shift s).addElement (s.row line) element = shiftStep s (d.addElement line element) := by
  rw [addElement, addElement, bindings_shift]
  cases element.label with
  | literal text =>
    dsimp only
    cases d.bindings.bindSame? element.key.name text <;> rfl
  | reference name => exact congrArg (Except.ok (), ·) (addUse_shift s d line name)

theorem addElements_shift (d : Draft) (line : Nat) (elements : List Element) :
    (d.shift s).addElements (s.row line) elements = shiftStep s (d.addElements line elements) := by
  induction elements generalizing d with
  | nil => rfl
  | cons element elements ih =>
    rw [addElements, addElements, addElement_shift]
    rcases d.addElement line element with ⟨e | _, d'⟩
    · rfl
    · exact ih d'

theorem addChain_shift (d : Draft) (line : Nat) (chain : Chain) :
    (d.shift s).addChain (s.row line) chain = shiftStep s (d.addChain line chain) := by
  rw [addChain, addChain, addElements_shift]
  rcases d.addElements line chain.elements with ⟨e | _, d'⟩
  · rfl
  · have hlinks := addLinks_shift s line d'.links (chain.elements.map Element.key) chain.arrows
    exact congrArg (fun links => (Except.ok (), { d'.shift s with links })) hlinks

/-- **Taking a statement commutes with moving.** -/
theorem add_shift (d : Draft) (line : Nat) (statement : Statement) :
    (d.shift s).add (s.row line) statement = shiftStep s (d.add line statement) := by
  cases statement with
  | declaration declaration => exact addDeclaration_shift s d line declaration
  | chain chain => exact addChain_shift s d line chain

/-- Takes what a line says, unless it is refused. -/
def record (d : Draft) (entry : Entry) : Except Diagnostic Draft :=
  match d.add entry.line entry.statement with
  | (.error e, _) => .error e
  | (.ok (), d) => .ok d

theorem record_shift (d : Draft) (line : Nat) (statement : Statement) :
    (d.shift s).record ⟨s.row line, statement⟩ =
      ((d.record ⟨line, statement⟩).map (shift s)).mapError (Diagnostic.shift s) := by
  simp only [record, add_shift]
  rcases d.add line statement with ⟨e | _, d'⟩ <;> rfl

/-- A line is read, and what it says is taken. -/
theorem readLine_eq (d : Draft) (line : SourceLine) :
    d.readLine line =
      match Statement.read line.text with
      | .error e => .error (.syntaxError line.number (line.column e.pos) e.fault.message)
      | .ok statement => d.record ⟨line.number, statement⟩ := rfl

/-- **Reading a line commutes with moving it.** -/
theorem readLine_shift (d : Draft) (line : SourceLine) :
    (d.shift s).readLine (line.shift s) =
      ((d.readLine line).map (shift s)).mapError (Diagnostic.shift s) := by
  have htext : (line.shift s).text = line.text := rfl
  rw [readLine_eq, readLine_eq, htext]
  cases Statement.read line.text with
  | error e =>
    dsimp only
    rw [line.column_shift]
    rfl
  | ok statement => exact record_shift s d line.number statement

/-! ## The graph of moved lines -/

theorem undeclared?_shift (d : Draft) :
    (d.shift s).undeclared? = d.undeclared?.map (Prod.map id s.row) :=
  List.find?_map

theorem place_shift (bindings : Bindings) (g : Graph) (key : NodeKey) (line : Nat) :
    place bindings g key (s.row line) =
      (place bindings g key line).mapError (Diagnostic.shift s) := by
  rw [place, place]
  cases g.nodeNamed? key.name key.enclosure with
  | some node => rfl
  | none => cases bindings.value? key.name <;> rfl

theorem placeLink_shift (bindings : Bindings) (source : Nat) (g : Graph)
    (destination : NodeKey × Nat) :
    placeLink bindings source g (destination.map id s.row) =
      (placeLink bindings source g destination).mapError (Diagnostic.shift s) := by
  rw [placeLink, placeLink]
  show (place bindings g destination.1 (s.row destination.2) >>= _) = _
  rw [place_shift]
  cases place bindings g destination.1 destination.2 <;> rfl

theorem placeRow_shift (bindings : Bindings) (g : Graph) (row : LinkRow) :
    placeRow bindings g (row.shift s) =
      (placeRow bindings g row).mapError (Diagnostic.shift s) := by
  rw [placeRow, placeRow]
  show (place bindings g row.source (s.row row.line) >>= _) = _
  rw [place_shift]
  cases place bindings g row.source row.line with
  | error e => rfl
  | ok found =>
    exact foldlM_map_eq_mapError (placeLink_shift s bindings found.2) row.destinations found.1

/-- **The graph does not move.** Only the variable that is declared nowhere is found in another
line. -/
theorem graph_shift (d : Draft) :
    (d.shift s).graph = d.graph.mapError (Diagnostic.shift s) := by
  rw [graph, graph, undeclared?_shift]
  cases d.undeclared? with
  | some use => rfl
  | none => exact foldlM_map_eq_mapError (placeRow_shift s d.bindings) d.links.rows .empty

/-- **Reading lines and drawing their graph commutes with moving them.** -/
theorem finish_shift (d : Draft) (lines : List SourceLine) :
    (d.shift s).finish (lines.map (SourceLine.shift s)) =
      (d.finish lines).mapError (Diagnostic.shift s) := by
  rw [finish, finish, foldlM_map_eq (readLine_shift s)]
  cases lines.foldlM readLine d with
  | error e => rfl
  | ok d' => exact graph_shift s d'

end Draft

/-- **If the lines that are read move, so does the error, and nothing else happens.** -/
theorem compile_shift {s : Shift} {source source' : String}
    (h : sourceLines source' = (sourceLines source).map (SourceLine.shift s)) :
    compile source' = (compile source).mapError (Diagnostic.shift s) := by
  rw [compile_eq_finish, compile_eq_finish, h]
  exact Draft.finish_shift s .empty (sourceLines source)

/-! ## What moves the lines of a text -/

/-- The parts of a text between its line feeds: its lines, and what stands behind the last line
feed. -/
def partsOf (source : String) : List Line := source.toList.splitOn '\n'

theorem sourceLines_eq_partsOf (source : String) :
    sourceLines source = significantLines 1 (partsOf source) := rfl

/-- Lines that only get other numbers. -/
theorem map_shift_significantLines {s : Shift} {number number' : Nat} {raws : List Line}
    (h : ∀ index < raws.length,
      s.row (number + index) = number' + index ∧ s.right (number + index) = 0) :
    (significantLines number raws).map (SourceLine.shift s) = significantLines number' raws := by
  induction raws generalizing number number' with
  | nil => rfl
  | cons raw raws ih =>
    obtain ⟨hrow, hright⟩ := h 0 (by simp)
    have hrest : ∀ index < raws.length, s.row (number + 1 + index) = number' + 1 + index ∧
        s.right (number + 1 + index) = 0 := by
      intro index hindex
      have hnext := h (index + 1) (by simpa using hindex)
      rwa [Nat.add_comm index, ← Nat.add_assoc, ← Nat.add_assoc] at hnext
    rw [significantLines, significantLines, List.map_append, ih hrest,
      SourceLine.ofRaw?_eq_map number, SourceLine.ofRaw?_eq_map number']
    refine congrArg (· ++ significantLines (number' + 1) raws) ?_
    cases SourceLine.ofRaw? 0 raw with
    | none => rfl
    | some line => simpa [SourceLine.shift] using And.intro hrow hright

/-- Whitespace around a line moves what the line says to the right. -/
theorem SourceLine.ofRaw?_surround (number : Nat) (raw : Line) {margin tail : Line}
    (hmargin : Spaces margin) (htail : Spaces tail) :
    SourceLine.ofRaw? number (margin ++ (raw ++ tail)) =
      (SourceLine.ofRaw? number raw).map fun line =>
        { line with indent := line.indent + margin.length } := by
  obtain ⟨front, back, hfront, hback, hraw⟩ := exists_eq_append_trim raw
  have htext := trimmed_trim raw
  generalize trim raw = text at hraw htext
  subst hraw
  have hsplit : margin ++ ((front ++ (text ++ back)) ++ tail) =
      (margin ++ front) ++ (text ++ (back ++ tail)) := by
    simp only [List.append_assoc]
  rw [hsplit, ofRaw?_append number (hmargin.append hfront) (hback.append htail) htext,
    ofRaw?_append number hfront hback htext]
  split
  · rfl
  · rw [List.length_append, Nat.add_comm margin.length]
    rfl

/-- The text with a carriage return in front of each line feed. -/
def withReturns (source : String) : String :=
  String.ofList (source.toList.flatMap fun c => if c = '\n' then ['\r', '\n'] else [c])

/-- Each part but the last, with a carriage return behind it. -/
def endedByReturns : List Line → List Line
  | [] => []
  | [last] => [last]
  | raw :: rest => (raw ++ ['\r']) :: endedByReturns rest

theorem endedByReturns_cons {raws : List Line} (h : raws ≠ []) (raw : Line) :
    endedByReturns (raw :: raws) = (raw ++ ['\r']) :: endedByReturns raws := by
  cases raws with
  | nil => exact absurd rfl h
  | cons next raws => rfl

theorem endedByReturns_modifyHead (c : Char) (raws : List Line) :
    endedByReturns (raws.modifyHead (c :: ·)) = (endedByReturns raws).modifyHead (c :: ·) := by
  match raws with
  | [] => rfl
  | [last] => rfl
  | raw :: next :: raws => rfl

theorem partsOf_withReturns (source : String) :
    partsOf (withReturns source) = endedByReturns (partsOf source) := by
  rw [partsOf, partsOf, withReturns, String.toList_ofList]
  induction source.toList with
  | nil => rfl
  | cons c text ih =>
    by_cases hc : c = '\n'
    · have hne := List.splitOn_ne_nil '\n' text
      simp [hc, List.splitOn_cons_eq_if_modifyHead, ih, endedByReturns_cons hne]
    · simp [hc, List.splitOn_cons_eq_if_modifyHead, ih, endedByReturns_modifyHead]

theorem significantLines_endedByReturns (number : Nat) (raws : List Line) :
    significantLines number (endedByReturns raws) = significantLines number raws := by
  have hreturn : Spaces ['\r'] := List.forall_mem_singleton.2 (by decide)
  induction raws generalizing number with
  | nil => rfl
  | cons raw raws ih =>
    cases raws with
    | nil => rfl
    | cons next raws =>
      rw [endedByReturns_cons (List.cons_ne_nil _ _), significantLines, significantLines, ih,
        SourceLine.ofRaw?_append_spaces number raw hreturn]

section Texts

variable {source source' : String} {before after : List Line} {raw margin tail : Line}

/-- **Whitespace around a line** moves the syntax error in it to the right. -/
theorem compile_surrounded (hsource : partsOf source = before ++ raw :: after)
    (hsource' : partsOf source' = before ++ (margin ++ (raw ++ tail)) :: after)
    (hmargin : Spaces margin) (htail : Spaces tail) :
    compile source' = (compile source).mapError
      (Diagnostic.shift (.indent (before.length + 1) margin.length)) := by
  refine compile_shift ?_
  have hbefore : ∀ index < before.length,
      (Shift.indent (before.length + 1) margin.length).row (1 + index) = 1 + index ∧
        (Shift.indent (before.length + 1) margin.length).right (1 + index) = 0 := by
    intro index hindex
    exact ⟨rfl, if_neg (by omega)⟩
  have hafter : ∀ index < after.length,
      (Shift.indent (before.length + 1) margin.length).row (1 + before.length + 1 + index) =
          1 + before.length + 1 + index ∧
        (Shift.indent (before.length + 1) margin.length).right (1 + before.length + 1 + index) =
          0 := by
    intro index _
    exact ⟨rfl, if_neg (by omega)⟩
  have hline : ((SourceLine.ofRaw? (1 + before.length) raw).toList).map
      (SourceLine.shift (.indent (before.length + 1) margin.length)) =
        (SourceLine.ofRaw? (1 + before.length) (margin ++ (raw ++ tail))).toList := by
    rw [SourceLine.ofRaw?_surround _ raw hmargin htail, SourceLine.ofRaw?_eq_map]
    cases SourceLine.ofRaw? 0 raw with
    | none => rfl
    | some line => simp [SourceLine.shift, Shift.indent, Nat.add_comm]
  rw [sourceLines_eq_partsOf, sourceLines_eq_partsOf, hsource, hsource', significantLines_append,
    significantLines_append, significantLines, significantLines, List.map_append, List.map_append,
    map_shift_significantLines hbefore, map_shift_significantLines hafter, hline]

/-- **Carriage returns at the ends of the lines** change nothing. -/
theorem compile_withReturns (source : String) : compile (withReturns source) = compile source := by
  rw [compile_eq_finish, compile_eq_finish, sourceLines_eq_partsOf, partsOf_withReturns,
    significantLines_endedByReturns, sourceLines_eq_partsOf]

/-- **A line that says nothing** moves the lines below it down. -/
theorem compile_inserted (hsource : partsOf source = before ++ after)
    (hsource' : partsOf source' = before ++ raw :: after) (hraw : Silent raw) :
    compile source' = (compile source).mapError (Diagnostic.shift (.down (before.length + 1))) := by
  refine compile_shift ?_
  have hbefore : ∀ index < before.length,
      (Shift.down (before.length + 1)).row (1 + index) = 1 + index ∧
        (Shift.down (before.length + 1)).right (1 + index) = 0 := by
    intro index hindex
    exact ⟨if_neg (by omega), rfl⟩
  have hafter : ∀ index < after.length,
      (Shift.down (before.length + 1)).row (1 + before.length + index) =
          1 + before.length + 1 + index ∧
        (Shift.down (before.length + 1)).right (1 + before.length + index) = 0 := by
    intro index _
    exact ⟨(if_pos (by omega)).trans (by omega), rfl⟩
  rw [sourceLines_eq_partsOf, sourceLines_eq_partsOf, hsource, hsource', significantLines_append,
    significantLines_append, significantLines, SourceLine.ofRaw?_eq_none_iff.2 hraw, List.map_append,
    map_shift_significantLines hbefore, map_shift_significantLines hafter]
  rfl

end Texts

/-- **Whitespace around lines, blank lines, comments and line ends only move errors.** The graph is
never changed by them. Whitespace in front of a line adds to the column of a syntax error in that
line, carriage returns do nothing at all, and a line that says nothing adds one to the line of every
error from there on. -/
theorem compile_moves_errors :
    (∀ source source' before raw after margin tail,
      partsOf source = before ++ raw :: after →
      partsOf source' = before ++ (margin ++ (raw ++ tail)) :: after →
      Spaces margin → Spaces tail →
      compile source' = (compile source).mapError
        (Diagnostic.shift (.indent (before.length + 1) margin.length))) ∧
    (∀ source, compile (withReturns source) = compile source) ∧
    ∀ source source' before raw after,
      partsOf source = before ++ after → partsOf source' = before ++ raw :: after → Silent raw →
      compile source' = (compile source).mapError
        (Diagnostic.shift (.down (before.length + 1))) :=
  ⟨fun _ _ _ _ _ _ _ hsource hsource' => compile_surrounded hsource hsource',
    compile_withReturns,
    fun _ _ _ _ _ hsource hsource' => compile_inserted hsource hsource'⟩

/-- A syntax error moves to the right behind an em space and a blank, and down below a comment. -/
theorem compile_moves_errors_unknown_arrow :
    compile "[a] =>" = .error (.syntaxError 1 5 "expected one of ->, <-") ∧
      compile "\u2003 [a] =>\t\r" = .error (.syntaxError 1 7 "expected one of ->, <-") ∧
      compile " # note\n[a] =>" = .error (.syntaxError 2 5 "expected one of ->, <-") := by
  have hlines : sourceLines "[a] =>" = [⟨1, 0, "[a] =>".toList⟩] := by rfl
  have hread : Statement.read "[a] =>".toList = .error ⟨.expectedArrow, 4⟩ := by cbv
  have h : compile "[a] =>" = .error (.syntaxError 1 5 "expected one of ->, <-") := by
    rw [compile, hlines]
    simp only [List.foldlM_cons, Draft.readLine, hread]
    rfl
  have hmargin : Spaces ['\u2003', ' '] :=
    List.forall_mem_cons.2 ⟨by decide, List.forall_mem_singleton.2 (by decide)⟩
  have htail : Spaces ['\t', '\r'] :=
    List.forall_mem_cons.2 ⟨by decide, List.forall_mem_singleton.2 (by decide)⟩
  have hsilent : Silent " # note".toList :=
    .inr ⟨[' '], " note".toList, List.forall_mem_singleton.2 (by decide), by rfl⟩
  refine ⟨h, ?_, ?_⟩
  · rw [compile_moves_errors.1 "[a] =>" _ [] "[a] =>".toList [] _ _ (by rfl) (by rfl) hmargin htail,
      h]
    rfl
  · rw [compile_moves_errors.2.2 "[a] =>" _ [] " # note".toList ["[a] =>".toList] (by rfl) (by rfl)
      hsilent, h]
    rfl

end ChainDiagram
