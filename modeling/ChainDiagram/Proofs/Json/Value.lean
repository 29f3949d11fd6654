import ChainDiagram.Json.Reader
import ChainDiagram.Json.Writer
import ChainDiagram.Proofs.Json.Token

/-!
# JSON values are read back

Both written forms of a value consist of the same tokens (`tokens`), with or without spaces between
them, and the reader takes the tokens of a value to that value, inside of whatever is open. So a
value is read back from either form, with each number as the number that is read back. Only decimals
may be others there, of the same value.

The inductions are on the value. For the items of an array and the members of an object, they go
along the list, with what the elements of the list fulfil as a hypothesis.

## What is here

* `reread`: the value that is read back. A value without decimals is the same (`Exact`).
* `tokens`: the tokens of a value.
* `cutInto_compactChars`, `cutInto_prettyChars`: what is written are the tokens of what is read
  back.
* `Reading.reads`: what is read from the tokens of a value.
* `ofText?_compact_append`, `ofText?_pretty_append`: a value is read back from a text.
-/

set_option autoImplicit false

namespace ChainDiagram.Json

/-- A value is made of smaller ones: the items of an array, and what the members of an object
hold. -/
@[elab_as_elim, induction_eliminator]
theorem induction {motive : Json → Prop} (null : motive null) (bool : ∀ value, motive (bool value))
    (number : ∀ value, motive (number value)) (string : ∀ text, motive (string text))
    (array : ∀ items, (∀ item ∈ items, motive item) → motive (array items))
    (object : ∀ members : List (String × Json), (∀ member ∈ members, motive member.2) →
      motive (object members))
    (unpaired : motive unpaired) (value : Json) : motive value :=
  @Json.rec motive (fun items => ∀ item ∈ items, motive item)
    (fun members => ∀ member ∈ members, motive member.2) (fun member => motive member.2)
    null bool number string array object unpaired
    nofun (fun _ _ hitem hitems => List.forall_mem_cons.2 ⟨hitem, hitems⟩)
    nofun (fun _ _ hmember hmembers => List.forall_mem_cons.2 ⟨hmember, hmembers⟩)
    (fun _ _ hvalue => hvalue) value

/-! ## What is read back -/

/-- **The value that is read back**: each number is the one that its numeral denotes. -/
def reread : Json → Json
  | .number value => .number value.reread
  | .array items => .array (items.map reread)
  | .object members => .object (members.map fun member => (member.1, member.2.reread))
  | .null => .null
  | .bool value => .bool value
  | .string text => .string text
  | .unpaired => .unpaired
termination_by value => value
decreasing_by
  · rename_i hitem
    have := List.sizeOf_lt_of_mem hitem
    simp only [array.sizeOf_spec]
    omega
  · rename_i hmember
    have := List.sizeOf_lt_of_mem hmember
    obtain ⟨key, value⟩ := member
    simp only [object.sizeOf_spec, Prod.mk.sizeOf_spec] at *
    omega

/-- A value that is read back as itself. -/
def Exact (value : Json) : Prop := value.reread = value

@[simp] theorem exact_null : null.Exact := by rw [Exact, reread]

@[simp] theorem exact_bool (value : Bool) : (bool value).Exact := by rw [Exact, reread]

@[simp] theorem exact_string (text : String) : (string text).Exact := by rw [Exact, reread]

@[simp] theorem exact_ofNat (n : Nat) : (ofNat n).Exact := by
  rw [Exact, ofNat, reread, Number.reread_integer]

@[simp] theorem exact_array_iff {items : List Json} :
    (array items).Exact ↔ ∀ item ∈ items, item.Exact := by
  have hmap : items.map reread = items.map id ↔ ∀ item ∈ items, item.Exact := List.map_inj_left
  rw [List.map_id] at hmap
  rw [Exact, reread, array.injEq, hmap]

@[simp] theorem exact_object_iff {members : List (String × Json)} :
    (object members).Exact ↔ ∀ member ∈ members, member.2.Exact := by
  have hmap : (members.map fun member => (member.1, member.2.reread)) = members.map id ↔
      ∀ member ∈ members, (member.1, member.2.reread) = member := List.map_inj_left
  rw [List.map_id] at hmap
  rw [Exact, reread, object.injEq, hmap]
  simp [Exact]

mutual

/-- The tokens of a value. -/
def tokens : Json → List Token
  | .null => [.null]
  | .bool value => [.bool value]
  | .number value => [.number value]
  | .string text => [.string (some text)]
  | .array items => .openArray :: itemTokens items
  | .object members => .openObject :: memberTokens members
  | .unpaired => [.string none]

/-- The tokens of the items of an array, and its closing bracket. -/
def itemTokens : List Json → List Token
  | [] => [.closeArray]
  | [item] => tokens item ++ [.closeArray]
  | item :: next :: items => tokens item ++ .comma :: itemTokens (next :: items)

/-- The tokens of the members of an object, and its closing bracket. -/
def memberTokens : List (String × Json) → List Token
  | [] => [.closeObject]
  | [(key, value)] => .string (some key) :: .colon :: tokens value ++ [.closeObject]
  | (key, value) :: next :: members =>
    .string (some key) :: .colon :: tokens value ++ .comma :: memberTokens (next :: members)

end

/-! ## Writing -/

/-- A text is cut into some tokens, whatever follows it. If it ends with a number, what follows has
to let the number end. -/
def CutInto (text : List Char) (ts : List Token) : Prop :=
  ∀ rest, EndsNumber rest → tokenize (text ++ rest) = (tokenize rest).map (ts ++ ·)

theorem endsNumber_cons {c : Char} (hc : ¬c.isDigit ∧ c ∉ ['.', 'e', 'E']) (text : List Char) :
    EndsNumber (c :: text) := by
  rintro d ⟨⟩
  exact hc

theorem EndsNumber.append {text rest : List Char} (h : EndsNumber text) (hrest : EndsNumber rest) :
    EndsNumber (text ++ rest) := by
  cases text with
  | nil => exact hrest
  | cons c text => exact endsNumber_cons (h c rfl) _

namespace CutInto

variable {text text' : List Char} {ts ts' : List Token}

theorem single (token : Token) : CutInto token.text [token.reread] :=
  fun _ hrest => tokenize_text_append token (.inr hrest)

/-- A token that ends by itself stands in front of any text. -/
theorem cons (token : Token) (h : token.Closed) (htext : CutInto text ts) :
    CutInto (token.text ++ text) (token :: ts) := by
  intro rest hrest
  rw [List.append_assoc, tokenize_text_append token (.inl h), h.reread_eq, htext rest hrest,
    Option.map_map]
  rfl

theorem append (htext : CutInto text ts) (hends : EndsNumber text') (htext' : CutInto text' ts') :
    CutInto (text ++ text') (ts ++ ts') := by
  intro rest hrest
  rw [List.append_assoc, htext _ (hends.append hrest), htext' rest hrest, Option.map_map]
  simp only [Function.comp_def, List.append_assoc]

theorem spaces_append {spaces : List Char} (hspaces : ∀ c ∈ spaces, isSpace c)
    (htext : CutInto text ts) : CutInto (spaces ++ text) ts := by
  intro rest hrest
  rw [List.append_assoc, tokenize_spaces_append hspaces, htext rest hrest]

/-- The text of a member. -/
theorem member (key : String) (htext : CutInto text ts) :
    CutInto ((Token.string (some key)).text ++ ':' :: text)
      (.string (some key) :: .colon :: ts) :=
  cons (.string (some key)) trivial (cons .colon trivial htext)

end CutInto

theorem cutInto_compactItems {items : List Json}
    (h : ∀ item ∈ items, CutInto (compactChars item) (tokens item.reread)) :
    CutInto (compactItems items) (itemTokens (items.map reread)) := by
  induction items with
  | nil => exact .single .closeArray
  | cons item items ih =>
    rw [List.forall_mem_cons] at h
    cases items with
    | nil =>
      rw [compactItems, List.map_singleton, itemTokens]
      exact h.1.append (endsNumber_cons (by decide) _) (.single .closeArray)
    | cons next items =>
      rw [compactItems, List.map_cons, List.map_cons, itemTokens]
      exact h.1.append (endsNumber_cons (by decide) _)
        (.cons .comma trivial (ih h.2))

theorem cutInto_compactMembers {members : List (String × Json)}
    (h : ∀ member ∈ members, CutInto (compactChars member.2) (tokens member.2.reread)) :
    CutInto (compactMembers members)
      (memberTokens (members.map fun member => (member.1, member.2.reread))) := by
  induction members with
  | nil => exact .single .closeObject
  | cons member members ih =>
    obtain ⟨key, value⟩ := member
    rw [List.forall_mem_cons] at h
    cases members with
    | nil =>
      rw [compactMembers, List.map_singleton, memberTokens]
      exact (h.1.member key).append (endsNumber_cons (by decide) _) (.single .closeObject)
    | cons next members =>
      rw [compactMembers, List.map_cons, List.map_cons, memberTokens]
      exact (h.1.member key).append (endsNumber_cons (by decide) _)
        (.cons .comma trivial (ih h.2))

/-- **The compact form of a value consists of the tokens of what is read back.** -/
theorem cutInto_compactChars (value : Json) :
    CutInto (compactChars value) (tokens value.reread) := by
  induction value with
  | array items ih =>
    rw [compactChars, reread, tokens]
    exact .cons .openArray trivial (cutInto_compactItems ih)
  | object members ih =>
    rw [compactChars, reread, tokens]
    exact .cons .openObject trivial (cutInto_compactMembers ih)
  | null =>
    rw [reread]
    exact .single .null
  | bool value =>
    rw [reread]
    exact .single (.bool value)
  | number value =>
    rw [reread]
    exact .single (.number value)
  | string text =>
    rw [reread]
    exact .single (.string (some text))
  | unpaired =>
    rw [reread]
    exact .single (.string none)

theorem isSpace_of_mem_newLine (level : Nat) : ∀ c ∈ newLine level, isSpace c := by
  intro c hc
  rcases List.mem_cons.1 hc with rfl | hc
  · rfl
  · rw [List.eq_of_mem_replicate hc]
    rfl

theorem endsNumber_newLine_append (level : Nat) (text : List Char) :
    EndsNumber (newLine level ++ text) :=
  endsNumber_cons (by decide) _

theorem cutInto_prettyItems {items : List Json} (level : Nat)
    (h : ∀ item ∈ items, ∀ level, CutInto (prettyChars level item) (tokens item.reread)) :
    CutInto (prettyItems level items) (itemTokens (items.map reread)) := by
  have hclose : CutInto (newLine level ++ [']']) [.closeArray] :=
    .spaces_append (isSpace_of_mem_newLine level) (.single .closeArray)
  induction items with
  | nil => exact hclose
  | cons item items ih =>
    rw [List.forall_mem_cons] at h
    cases items with
    | nil =>
      rw [prettyItems, List.map_singleton, itemTokens, List.append_assoc, List.append_assoc]
      exact .spaces_append (isSpace_of_mem_newLine _)
        ((h.1 _).append (endsNumber_newLine_append level _) hclose)
    | cons next items =>
      rw [prettyItems, List.map_cons, List.map_cons, itemTokens, List.append_assoc]
      exact .spaces_append (isSpace_of_mem_newLine _)
        ((h.1 _).append (endsNumber_cons (by decide) _) (.cons .comma trivial (ih h.2)))

theorem cutInto_prettyMembers {members : List (String × Json)} (level : Nat)
    (h : ∀ member ∈ members, ∀ level,
      CutInto (prettyChars level member.2) (tokens member.2.reread)) :
    CutInto (prettyMembers level members)
      (memberTokens (members.map fun member => (member.1, member.2.reread))) := by
  have hclose : CutInto (newLine level ++ ['\x7d']) [.closeObject] :=
    .spaces_append (isSpace_of_mem_newLine level) (.single .closeObject)
  have hspace : ∀ c ∈ [' '], isSpace c := by simp [isSpace]
  induction members with
  | nil => exact hclose
  | cons member members ih =>
    obtain ⟨key, value⟩ := member
    rw [List.forall_mem_cons] at h
    have hmember := (((h.1 (level + 1)).spaces_append hspace).member key).spaces_append
      (isSpace_of_mem_newLine (level + 1))
    cases members with
    | nil =>
      rw [prettyMembers, List.map_singleton, memberTokens]
      simpa only [List.append_assoc, List.singleton_append] using
        hmember.append (endsNumber_newLine_append level _) hclose
    | cons next members =>
      rw [prettyMembers, List.map_cons, List.map_cons, memberTokens]
      simpa only [List.append_assoc, List.singleton_append, List.map_cons] using
        hmember.append (endsNumber_cons (by decide) (prettyMembers level (next :: members)))
          (.cons .comma trivial (ih h.2))

/-- **The form with indentation consists of the same tokens.** -/
theorem cutInto_prettyChars (value : Json) (level : Nat) :
    CutInto (prettyChars level value) (tokens value.reread) := by
  induction value generalizing level with
  | array items ih =>
    rw [reread, tokens]
    cases items with
    | nil => exact .cons .openArray trivial (.single .closeArray)
    | cons item items =>
      rw [prettyChars]
      exact .cons .openArray trivial (cutInto_prettyItems level ih)
  | object members ih =>
    rw [reread, tokens]
    cases members with
    | nil => exact .cons .openObject trivial (.single .closeObject)
    | cons member members =>
      rw [prettyChars]
      exact .cons .openObject trivial (cutInto_prettyMembers level ih)
  -- a value without items and members is written the same way in both forms
  | null => exact cutInto_compactChars .null
  | bool value => exact cutInto_compactChars (.bool value)
  | number value => exact cutInto_compactChars (.number value)
  | string text => exact cutInto_compactChars (.string text)
  | unpaired => exact cutInto_compactChars .unpaired

/-- Spaces behind a text do not matter. -/
theorem CutInto.tokenize_append {text : List Char} {ts : List Token} (h : CutInto text ts)
    {spaces : List Char} (hspaces : ∀ c ∈ spaces, isSpace c) :
    tokenize (text ++ spaces) = some ts := by
  have hends : EndsNumber spaces := by
    intro c hc
    have hspace := hspaces c (List.mem_of_mem_head? hc)
    simp only [isSpace, Bool.or_eq_true, decide_eq_true_eq] at hspace
    rcases hspace with ((rfl | rfl) | rfl) | rfl <;> decide
  have hnone := tokenize_spaces_append hspaces []
  rw [List.append_nil, tokenize] at hnone
  rw [h spaces hends, hnone, Option.map_some, List.append_nil]

/-! ## Reading -/

theorem mapM_eq_some_of_forall {α β : Type} {f : α → Option β} {g : α → β} {l : List α}
    (h : ∀ a ∈ l, f a = some (g a)) : l.mapM f = some (l.map g) := by
  induction l with
  | nil => rfl
  | cons a l ih =>
    rw [List.forall_mem_cons] at h
    rw [List.mapM_cons, h.1, ih h.2]
    rfl

/-- What was written item by item is read item by item. -/
theorem mapM_map_eq_some {α β : Type} {write : α → β} {read : β → Option α} {items : List α}
    (h : ∀ a ∈ items, read (write a) = some a) : (items.map write).mapM read = some items := by
  rw [List.mapM_map]
  exact (mapM_eq_some_of_forall h).trans (congrArg some (List.map_id' items))

namespace Reading

/-- A value may stand next. -/
def ExpectsValue (expect : Expect) : Prop := expect = .value ∨ expect = .item

/-- The tokens of a value are read as the value, inside of whatever is open. -/
def Reads (value : Json) : Prop :=
  ∀ frames expect, ExpectsValue expect →
    (tokens value).foldlM step (pending frames expect) = some (push value frames)

theorem step_eq_stepValue {expect : Expect} (hexpect : ExpectsValue expect) (frames : List Frame)
    {token : Token} (htoken : token ≠ .closeArray) :
    step (pending frames expect) token = stepValue frames token := by
  rcases hexpect with rfl | rfl
  · rw [step]
  · rw [step]
    exact fun _ _ h _ => htoken h

theorem foldlM_step_itemTokens {item : Json} {items : List Json}
    (h : ∀ value ∈ item :: items, Reads value) (before : List Json) (frames : List Frame)
    {expect : Expect} (hexpect : ExpectsValue expect) :
    (itemTokens (item :: items)).foldlM step (pending (.array before :: frames) expect) =
      some (push (.array (before.reverse ++ item :: items)) frames) := by
  induction items generalizing item before expect with
  | nil =>
    rw [itemTokens, List.foldlM_append, h item List.mem_cons_self _ _ hexpect]
    -- the item is on the stack, and the bracket closes the array
    show some (push (.array (item :: before).reverse) frames) = _
    rw [List.reverse_cons]
  | cons next items ih =>
    rw [itemTokens, List.foldlM_append, h item List.mem_cons_self _ _ hexpect]
    -- behind the comma, no bracket may stand any more
    show (itemTokens (next :: items)).foldlM step
      (pending (.array (item :: before) :: frames) .value) = _
    rw [ih (fun value hvalue => h value (List.mem_cons_of_mem item hvalue)) _ (.inl rfl)]
    simp

/-- A key may stand next. -/
def ExpectsKey (expect : Expect) : Prop := expect = .key ∨ expect = .member

theorem foldlM_step_member (key : String) {value : Json} (h : Reads value)
    (before : List (Option String × Json)) (last : Option String) (frames : List Frame)
    {expect : Expect} (hexpect : ExpectsKey expect) :
    (.string (some key) :: .colon :: tokens value).foldlM step
        (pending (.object before last :: frames) expect) =
      some (pending (.object ((some key, value) :: before) (some key) :: frames) .separator) := by
  have hvalue := h (.object before (some key) :: frames) .value (.inl rfl)
  rcases hexpect with rfl | rfl <;> exact hvalue

/-- A member as it stands on the stack. -/
def stacked (member : String × Json) : Option String × Json := (some member.1, member.2)

theorem closeObject_reverse_map (members : List (String × Json)) :
    closeObject (members.map stacked).reverse = .object members := by
  rw [closeObject, List.reverse_reverse, mapM_map_eq_some]
  exact fun member _ => rfl

theorem foldlM_step_memberTokens {member : String × Json} {members : List (String × Json)}
    (h : ∀ member' ∈ member :: members, Reads member'.2) (before : List (Option String × Json))
    (last : Option String) (frames : List Frame) {expect : Expect} (hexpect : ExpectsKey expect) :
    (memberTokens (member :: members)).foldlM step
        (pending (.object before last :: frames) expect) =
      some (push (closeObject (((member :: members).map stacked).reverse ++ before)) frames) := by
  induction members generalizing member before last expect with
  | nil =>
    obtain ⟨key, value⟩ := member
    rw [memberTokens, List.foldlM_append,
      foldlM_step_member key (h _ List.mem_cons_self) before last frames hexpect]
    rfl
  | cons next members ih =>
    obtain ⟨key, value⟩ := member
    rw [memberTokens, List.foldlM_append,
      foldlM_step_member key (h _ List.mem_cons_self) before last frames hexpect]
    show (memberTokens (next :: members)).foldlM step
      (pending (.object ((some key, value) :: before) (some key) :: frames) .key) = _
    rw [ih (fun member' hmember' => h member' (List.mem_cons_of_mem _ hmember')) _ _ (.inl rfl)]
    simp [stacked]

/-- **The tokens of a value are read as the value.** -/
theorem reads (value : Json) : Reads value := by
  induction value with
  | array items ih =>
    intro frames expect hexpect
    rw [tokens, List.foldlM_cons, step_eq_stepValue hexpect frames (by simp)]
    cases items with
    | nil => rfl
    | cons item items => exact foldlM_step_itemTokens ih [] frames (.inr rfl)
  | object members ih =>
    intro frames expect hexpect
    rw [tokens, List.foldlM_cons, step_eq_stepValue hexpect frames (by simp)]
    cases members with
    | nil => rfl
    | cons member members =>
      rw [← closeObject_reverse_map, ← List.append_nil (List.reverse _)]
      exact foldlM_step_memberTokens ih [] none frames (.inr rfl)
  | _ =>
    intro frames expect hexpect
    rw [tokens, List.foldlM_cons, step_eq_stepValue hexpect frames (by simp)]
    rfl

end Reading

theorem ofTokens?_tokens (value : Json) : ofTokens? (tokens value) = some value := by
  rw [ofTokens?, Reading.start, Reading.reads value [] .value (.inl rfl)]
  rfl

section Texts

variable {spaces : List Char} (hspaces : ∀ c ∈ spaces, isSpace c)

include hspaces

/-- **A value is read back from its compact form**, also with spaces behind it. -/
theorem ofText?_compact_append (value : Json) :
    ofText? (value.compact ++ String.ofList spaces) = some value.reread := by
  rw [ofText?, compact, String.toList_append, String.toList_ofList, String.toList_ofList,
    (cutInto_compactChars value).tokenize_append hspaces]
  exact ofTokens?_tokens value.reread

/-- **A value is read back from its form with indentation**, also with spaces behind it. -/
theorem ofText?_pretty_append (value : Json) :
    ofText? (value.pretty ++ String.ofList spaces) = some value.reread := by
  rw [ofText?, pretty, String.toList_append, String.toList_ofList, String.toList_ofList,
    (cutInto_prettyChars value 0).tokenize_append hspaces]
  exact ofTokens?_tokens value.reread

end Texts

section Exact

variable {value : Json}

theorem Exact.ofText?_compact (h : value.Exact) : ofText? value.compact = some value := by
  have hread := ofText?_compact_append (fun c hc => nomatch hc : ∀ c ∈ [], isSpace c) value
  rwa [String.ofList_nil, String.append_empty, h] at hread

theorem Exact.ofText?_pretty (h : value.Exact) : ofText? value.pretty = some value := by
  have hread := ofText?_pretty_append (fun c hc => nomatch hc : ∀ c ∈ [], isSpace c) value
  rwa [String.ofList_nil, String.append_empty, h] at hread

end Exact

end ChainDiagram.Json
