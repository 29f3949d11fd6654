import Mathlib.Data.List.Nodup
import Mathlib.Data.List.Induction
import ChainDiagram.Draft

/-!
# What a link table holds

A link table is filled one link or lone node at a time. Every such use of a node as a source is a
`Mention`, and the table is a function of the mentions in their order: its sources are those of the
mentions without repetitions, and each has the destinations that were mentioned with it.

## What is here

* `eraseDups_concat`, `nodup_eraseDups`: first occurrences in a list that grows.
* `Mention`, with the `sources` of some mentions, the `destinations` of each, and all of them one
  after the other (`walkOf`, `arcsOf`).
* `LinkTable.ofMentions`: the table of some mentions. `LinkTable.Holds`: what its rows, its index and
  its number of links are, which each mention preserves (`LinkTable.Holds.record?`);
  `LinkTable.rows_ofMentions`: the rows.
* `LinkTable.Files`: what can be read off a table about the mentions it was filled from;
  `mentions_are_filed`: it tells this about any mentions, and each link finds its row.
* `Chain.mentions`: what a chain mentions; `Draft.addLinks_eq_foldl`: that is what it adds. Each
  element of a chain is mentioned (`Chain.exists_mention_of_mem`), and nothing else is.
-/

set_option autoImplicit false

namespace ChainDiagram

/-! ## First occurrences -/

section FirstOccurrences

variable {α : Type} [DecidableEq α]

/-- A list without repetitions grows only by what is new. -/
theorem eraseDups_concat (l : List α) (a : α) :
    (l ++ [a]).eraseDups = if a ∈ l then l.eraseDups else l.eraseDups ++ [a] := by
  rw [List.eraseDups_append, List.removeAll]
  by_cases h : a ∈ l <;> simp [h, List.eraseDups_cons]

theorem nodup_eraseDups (l : List α) : l.eraseDups.Nodup := by
  induction l using List.reverseRecOn with
  | nil => exact List.nodup_nil
  | append_singleton l a ih =>
    rw [eraseDups_concat]
    split
    · exact ih
    · rename_i h
      exact List.nodup_append.2 ⟨ih, List.nodup_singleton a, by
        rintro b hb c hc rfl
        exact h (List.mem_singleton.1 hc ▸ List.mem_eraseDups.1 hb)⟩

/-- A list without repetitions is left as it is. -/
theorem eraseDups_of_nodup {l : List α} (h : l.Nodup) : l.eraseDups = l := by
  induction l using List.reverseRecOn with
  | nil => rfl
  | append_singleton l a ih =>
    obtain ⟨hl, -, hdisjoint⟩ := List.nodup_append.1 h
    have ha : a ∉ l := fun hmem => hdisjoint a hmem a List.mem_cons_self rfl
    rw [eraseDups_concat, if_neg ha, ih hl]

/-- Of a second list, only what the first does not hold is appended. -/
theorem eraseDups_append_eq_filter (l m : List α) :
    (l ++ m).eraseDups = l.eraseDups ++ (m.filter (· ∉ l)).eraseDups := by
  rw [List.eraseDups_append, List.removeAll]
  refine congrArg (fun rest => l.eraseDups ++ rest.eraseDups) (List.filter_congr fun a _ => ?_)
  rw [List.elem_eq_mem, decide_not]

/-- First occurrences keep the order in which they come up. -/
theorem pairwise_idxOf_eraseDups (l : List α) :
    l.eraseDups.Pairwise fun a b => l.idxOf a < l.idxOf b := by
  induction l using List.reverseRecOn with
  | nil => exact List.Pairwise.nil
  | append_singleton l a ih =>
    have hold : ∀ b ∈ l, (l ++ [a]).idxOf b = l.idxOf b := fun b hb => List.idxOf_append_of_mem hb
    have hpairwise : l.eraseDups.Pairwise fun b c => (l ++ [a]).idxOf b < (l ++ [a]).idxOf c :=
      ih.imp_of_mem fun hb hc hlt => by
        rwa [hold _ (List.mem_eraseDups.1 hb), hold _ (List.mem_eraseDups.1 hc)]
    rw [eraseDups_concat]
    split
    · exact hpairwise
    · rename_i hnew
      refine List.pairwise_append.2 ⟨hpairwise, List.pairwise_singleton _ a, fun b hb c hc => ?_⟩
      obtain rfl := List.mem_singleton.1 hc
      have hb := List.mem_eraseDups.1 hb
      rw [hold b hb, List.idxOf_append_of_notMem hnew]
      exact Nat.lt_add_right _ (List.idxOf_lt_length_iff.2 hb)

end FirstOccurrences

/-! ## Mentions -/

/-- A use of a node as a source: with a destination it is a link, and without one it is a node that
stands alone. -/
structure Mention where
  source : NodeKey
  destination? : Option NodeKey
  line : Nat
  deriving DecidableEq, Repr

/-- The nodes that are sources, in the order of their first uses as one. -/
def sources (mentions : List Mention) : List NodeKey := (mentions.map (·.source)).eraseDups

/-- The destination of a mention, if it is a link that leaves a source, with its line. -/
def Mention.destinationFrom? (source : NodeKey) (mention : Mention) : Option (NodeKey × Nat) :=
  if mention.source = source then mention.destination?.map (·, mention.line) else none

/-- The destinations of the links that leave a source, in the order of the links. -/
def destinations (mentions : List Mention) (source : NodeKey) : List (NodeKey × Nat) :=
  mentions.filterMap (Mention.destinationFrom? source)

/-- The line of the first use of a node as a source. -/
def firstLine (mentions : List Mention) (source : NodeKey) : Nat :=
  ((mentions.find? (·.source = source)).map (·.line)).getD 0

theorem mem_sources_iff {mentions : List Mention} {key : NodeKey} :
    key ∈ sources mentions ↔ ∃ mention ∈ mentions, mention.source = key := by
  rw [sources, List.mem_eraseDups, List.mem_map]

theorem nodup_sources (mentions : List Mention) : (sources mentions).Nodup := nodup_eraseDups _

theorem sources_concat (mentions : List Mention) (mention : Mention) :
    sources (mentions ++ [mention]) =
      if mention.source ∈ sources mentions then sources mentions
      else sources mentions ++ [mention.source] := by
  rw [sources, List.map_append, List.map_singleton, eraseDups_concat]
  simp only [sources, List.mem_eraseDups]

theorem destinations_concat (mentions : List Mention) (mention : Mention) (source : NodeKey) :
    destinations (mentions ++ [mention]) source =
      destinations mentions source ++ (mention.destinationFrom? source).toList := by
  rw [destinations, List.filterMap_append, destinations]
  cases h : mention.destinationFrom? source <;> simp [h]

/-- What is no source has no destinations. -/
theorem destinations_eq_nil {mentions : List Mention} {source : NodeKey}
    (h : source ∉ sources mentions) : destinations mentions source = [] := by
  rw [destinations, List.filterMap_eq_nil_iff]
  intro mention hmention
  exact if_neg fun heq => h (mem_sources_iff.2 ⟨mention, hmention, heq⟩)

theorem mem_destinations_iff {mentions : List Mention} {source : NodeKey}
    {destination : NodeKey × Nat} :
    destination ∈ destinations mentions source ↔
      ⟨source, some destination.1, destination.2⟩ ∈ mentions := by
  obtain ⟨key, line⟩ := destination
  rw [destinations, List.mem_filterMap]
  constructor
  · rintro ⟨⟨source', destination?, line'⟩, hmem, h⟩
    rw [Mention.destinationFrom?] at h
    split at h
    · rename_i hsource
      obtain ⟨key', rfl, hkey⟩ := Option.map_eq_some_iff.1 h
      obtain ⟨rfl, rfl⟩ := Prod.mk.inj hkey
      exact hsource ▸ hmem
    · simp at h
  · exact fun hmem => ⟨_, hmem, by simp [Mention.destinationFrom?]⟩

/-- Where a source is known, its first use is an earlier one. -/
theorem firstLine_concat (mentions : List Mention) (mention : Mention) (source : NodeKey) :
    firstLine (mentions ++ [mention]) source =
      if source ∈ sources mentions then firstLine mentions source
      else if mention.source = source then mention.line else 0 := by
  rw [firstLine, List.find?_append]
  cases h : mentions.find? (·.source = source) with
  | none =>
    have hnot : source ∉ sources mentions := fun hmem => by
      obtain ⟨other, hother, heq⟩ := mem_sources_iff.1 hmem
      simpa [heq] using List.find?_eq_none.1 h other hother
    by_cases heq : mention.source = source <;> simp [hnot, heq]
  | some found =>
    have hmem : source ∈ sources mentions := mem_sources_iff.2
      ⟨found, List.mem_of_find?_eq_some h, by simpa using List.find?_some h⟩
    simp [hmem, firstLine, h]

/-- The keys that a mention is about. -/
def Mention.Involves (mention : Mention) (key : NodeKey) : Prop :=
  key = mention.source ∨ mention.destination? = some key

/-- The keys along a table: each source, followed by its destinations. -/
def walkOf (mentions : List Mention) : List NodeKey :=
  (sources mentions).flatMap fun source => source :: (destinations mentions source).map Prod.fst

/-- The links along a table: those of each source in their order. -/
def arcsOf (mentions : List Mention) : List (NodeKey × NodeKey) :=
  (sources mentions).flatMap fun source =>
    (destinations mentions source).map fun destination => (source, destination.1)

/-- **The walk leads along what is mentioned**, and along nothing else. -/
theorem mem_walkOf_iff {mentions : List Mention} {key : NodeKey} :
    key ∈ walkOf mentions ↔ ∃ mention ∈ mentions, mention.Involves key := by
  rw [walkOf, List.mem_flatMap]
  constructor
  · rintro ⟨source, hsource, hkey⟩
    rcases List.mem_cons.1 hkey with rfl | hkey
    · obtain ⟨mention, hmention, heq⟩ := mem_sources_iff.1 hsource
      exact ⟨mention, hmention, .inl heq.symm⟩
    · obtain ⟨destination, hdestination, rfl⟩ := List.mem_map.1 hkey
      exact ⟨_, mem_destinations_iff.1 hdestination, .inr rfl⟩
  · rintro ⟨⟨source, destination?, line⟩, hmention, hkey⟩
    refine ⟨source, mem_sources_iff.2 ⟨_, hmention, rfl⟩, ?_⟩
    rcases hkey with rfl | rfl
    · exact List.mem_cons_self
    · have hmem : (key, line) ∈ destinations mentions source := mem_destinations_iff.2 hmention
      exact List.mem_cons_of_mem source (List.mem_map_of_mem hmem)

/-- Of the links of different sources, those that leave a key are found in one place. -/
theorem filter_flatMap_of_nodup {keys : List NodeKey} (hkeys : keys.Nodup)
    {arcs : NodeKey → List (NodeKey × NodeKey)}
    (harcs : ∀ source, ∀ arc ∈ arcs source, arc.1 = source) (key : NodeKey) :
    (keys.flatMap arcs).filter (·.1 = key) = if key ∈ keys then arcs key else [] := by
  induction keys with
  | nil => rfl
  | cons source keys ih =>
    obtain ⟨hsource, hkeys⟩ := List.nodup_cons.1 hkeys
    rw [List.flatMap_cons, List.filter_append, ih hkeys]
    by_cases heq : source = key
    · subst heq
      have hall : (arcs source).filter (·.1 = source) = arcs source :=
        List.filter_eq_self.2 fun arc harc => decide_eq_true (harcs source arc harc)
      rw [hall, if_neg hsource, if_pos List.mem_cons_self, List.append_nil]
    · have hnone : (arcs source).filter (·.1 = key) = [] :=
        List.filter_eq_nil_iff.2 fun arc harc harc' =>
          heq ((harcs source arc harc).symm.trans (of_decide_eq_true harc'))
      rw [hnone, List.nil_append]
      simp only [List.mem_cons, Ne.symm heq, false_or]

/-- The links that leave a key, found among all of them. -/
theorem filter_arcsOf (mentions : List Mention) (key : NodeKey) :
    (arcsOf mentions).filter (·.1 = key) =
      (destinations mentions key).map fun destination => (key, destination.1) := by
  rw [arcsOf, filter_flatMap_of_nodup (nodup_sources mentions)]
  · split
    · rfl
    · rename_i hkey
      rw [destinations_eq_nil hkey, List.map_nil]
  · exact fun source arc harc => by
      obtain ⟨destination, -, rfl⟩ := List.mem_map.1 harc
      rfl

/-! ## The table of some mentions -/

/-- A row with the destination of a mention, if it has one. -/
def Mention.addTo (mention : Mention) (row : LinkRow) : LinkRow :=
  match mention.destination? with
  | some destination => row.addDestination destination mention.line
  | none => row

theorem Mention.addTo_eq {mention : Mention} {source : NodeKey} (h : mention.source = source)
    (row : LinkRow) :
    mention.addTo row =
      { row with destinations := row.destinations ++ (mention.destinationFrom? source).toList } := by
  rw [addTo, destinationFrom?, if_pos h]
  cases mention.destination? with
  | some destination => rfl
  | none => rw [Option.map_none, Option.toList_none, List.append_nil]

/-- Changing the row of one of several different keys. -/
theorem modify_map_of_nodup {keys : List NodeKey} (hkeys : keys.Nodup) {slot : Nat} {key : NodeKey}
    (hslot : keys[slot]? = some key) (row : NodeKey → LinkRow) (change : LinkRow → LinkRow) :
    (keys.map row).modify slot change =
      keys.map fun other => if other = key then change (row other) else row other := by
  refine List.ext_getElem? fun i => ?_
  rw [List.getElem?_modify, List.getElem?_map, List.getElem?_map]
  cases hother : keys[i]? with
  | none => rfl
  | some other =>
    have hlt : slot < keys.length := (List.getElem?_eq_some_iff.1 hslot).1
    have hiff : other = key ↔ slot = i := by
      rw [← List.getElem?_inj hlt hkeys, hslot, hother, Option.some.injEq, eq_comm]
    simp only [Option.map_some, Option.map_eq_map, hiff]

/-- A list that grows by one keeps its entries. -/
theorem getElem?_concat_eq_some_iff {α : Type} {l : List α} {a b : α} {i : Nat} :
    (l ++ [a])[i]? = some b ↔ l[i]? = some b ∨ i = l.length ∧ a = b := by
  rcases Nat.lt_trichotomy i l.length with hlt | rfl | hgt
  · rw [List.getElem?_append_left hlt]
    exact (or_iff_left fun h => Nat.ne_of_lt hlt h.1).symm
  · simp
  · have hold : l[i]? = none := List.getElem?_eq_none (Nat.le_of_lt hgt)
    have hnew : (l ++ [a])[i]? = none := List.getElem?_eq_none (by simp; omega)
    simp [hold, hnew, Nat.ne_of_gt hgt]

/-- A link adds one destination, wherever its row is. -/
theorem length_flatMap_modify {rows : List LinkRow} {slot : Nat} (h : slot < rows.length)
    (mention : Mention) :
    ((rows.modify slot mention.addTo).flatMap (·.destinations)).length =
      (rows.flatMap (·.destinations)).length + [mention].countP (·.destination?.isSome) := by
  obtain ⟨before, row, after, hrows, -, hmodify⟩ := List.exists_of_modify mention.addTo h
  have hrow : (mention.addTo row).destinations.length =
      row.destinations.length + [mention].countP (·.destination?.isSome) := by
    rw [Mention.addTo_eq rfl, List.length_append, Mention.destinationFrom?, if_pos rfl]
    cases hdestination : mention.destination? <;> simp [hdestination]
  rw [hmodify, hrows]
  simp only [List.flatMap_append, List.flatMap_cons, List.length_append, hrow]
  omega

namespace LinkTable

/-- Takes a mention. -/
def record (table : LinkTable) (mention : Mention) : LinkTable :=
  match mention.destination? with
  | some destination => table.addLink mention.source destination mention.line
  | none => table.addSource mention.source mention.line

/-- Takes a mention, unless it is a link that no row is there for. -/
def record? (table : LinkTable) (mention : Mention) : Option LinkTable :=
  match mention.destination? with
  | some destination => table.addLink? mention.source destination mention.line
  | none => some (table.addSource mention.source mention.line)

theorem record_of_record? {table table' : LinkTable} {mention : Mention}
    (h : table.record? mention = some table') : table.record mention = table' := by
  obtain ⟨source, destination?, line⟩ := mention
  cases destination? with
  | none => exact Option.some.inj h
  | some destination =>
    have hlink : table.addLink? source destination line = some table' := h
    show (table.addLink? source destination line).getD table = table'
    rw [hlink, Option.getD_some]

/-- A mention adds its destination, if it has one, to the row at the slot of its source. -/
theorem record?_eq_some {table found : LinkTable} {mention : Mention} {slot : Nat}
    (hfound : table.sourceSlot mention.source mention.line = (slot, found))
    (hslot : slot < found.rows.length) :
    table.record? mention = some { found with rows := found.rows.modify slot mention.addTo } := by
  obtain ⟨source, destination?, line⟩ := mention
  cases destination? with
  | some destination =>
    simp only [record?, addLink?, hfound, if_pos hslot]
    rfl
  | none =>
    have hsame : found.rows.modify slot (Mention.addTo ⟨source, none, line⟩) = found.rows :=
      List.modify_id slot found.rows
    simp only [record?, addSource, hfound, hsame]

/-- The table of some mentions. -/
def ofMentions (mentions : List Mention) : LinkTable := mentions.foldl record .empty

/-- The row of a source: the line of its first use as one, and its destinations. -/
def rowOf (mentions : List Mention) (source : NodeKey) : LinkRow :=
  ⟨source, firstLine mentions source, destinations mentions source⟩

/-- A table that holds some mentions: it has a row for each source, and the index leads to these
rows and to nothing else. -/
structure Holds (table : LinkTable) (mentions : List Mention) : Prop where
  rows : table.rows = (sources mentions).map (rowOf mentions)
  slot?_eq_some_iff : ∀ source slot,
    table.slot? source = some slot ↔ (sources mentions)[slot]? = some source
  linkCount : table.linkCount = mentions.countP (·.destination?.isSome)

theorem holds_empty : empty.Holds [] := ⟨rfl, fun _ _ => by simp [slot?, empty, sources], rfl⟩

section Holds

variable {table : LinkTable} {mentions : List Mention}

theorem Holds.length_rows (h : table.Holds mentions) :
    table.rows.length = (sources mentions).length := by
  rw [h.rows, List.length_map]

theorem Holds.slot?_eq_none (h : table.Holds mentions) {source : NodeKey}
    (hnot : source ∉ sources mentions) : table.slot? source = none := by
  refine Option.eq_none_iff_forall_ne_some.2 fun slot hslot => hnot ?_
  exact List.mem_iff_getElem?.2 ⟨slot, (h.slot?_eq_some_iff source slot).1 hslot⟩

/-- **Every mention finds a row for its source.** A source that is known keeps its row, and one that
is new gets a row at the end; the index is right again, and no link has been added yet. -/
theorem Holds.sourceSlot (h : table.Holds mentions) (mention : Mention) :
    ∃ slot found, table.sourceSlot mention.source mention.line = (slot, found) ∧
      (sources (mentions ++ [mention]))[slot]? = some mention.source ∧
      (found.rows = (sources (mentions ++ [mention])).map fun key =>
        ⟨key, firstLine (mentions ++ [mention]) key, destinations mentions key⟩) ∧
      (∀ source slot, found.slot? source = some slot ↔
        (sources (mentions ++ [mention]))[slot]? = some source) ∧
      found.linkCount = table.linkCount := by
  have hold : table.rows = (sources mentions).map fun key =>
      ⟨key, firstLine (mentions ++ [mention]) key, destinations mentions key⟩ := by
    rw [h.rows]
    refine List.map_congr_left fun key hkey => ?_
    rw [rowOf, firstLine_concat, if_pos hkey]
  rw [sources_concat]
  by_cases hmem : mention.source ∈ sources mentions
  · obtain ⟨slot, hslot⟩ := List.mem_iff_getElem?.1 hmem
    have hfound := sourceSlot_of_some ((h.slot?_eq_some_iff _ _).2 hslot) mention.line
    rw [if_pos hmem]
    exact ⟨slot, table, hfound, hslot, hold, h.slot?_eq_some_iff, rfl⟩
  · have hfound := sourceSlot_of_none (h.slot?_eq_none hmem) mention.line
    rw [if_neg hmem]
    refine ⟨_, _, hfound, ?_, ?_, fun source slot => ?_, ?_⟩
    · rw [h.length_rows, List.getElem?_concat_length]
    · rw [List.map_append, ← hold, List.map_singleton, firstLine_concat, if_neg hmem, if_pos rfl,
        destinations_eq_nil hmem]
    · rw [slot?_cons, getElem?_concat_eq_some_iff, ← h.slot?_eq_some_iff, ← h.length_rows]
      by_cases hsource : source = mention.source
      · simp [hsource, h.slot?_eq_none hmem, eq_comm]
      · rw [if_neg hsource]
        exact (or_iff_left fun hnew => hsource hnew.2.symm).symm
    · simp [LinkTable.linkCount]

/-- **Every mention is taken**, and what the table holds is complete again. -/
theorem Holds.record? (h : table.Holds mentions) (mention : Mention) :
    ∃ table', table.record? mention = some table' ∧ table'.Holds (mentions ++ [mention]) := by
  obtain ⟨slot, found, hfound, hslot, hrows, hindex, hcount⟩ := h.sourceSlot mention
  have hlt : slot < found.rows.length := by
    rw [hrows, List.length_map]
    exact (List.getElem?_eq_some_iff.1 hslot).1
  refine ⟨_, record?_eq_some hfound hlt, ?_, hindex, ?_⟩
  · show found.rows.modify slot mention.addTo = _
    rw [hrows, modify_map_of_nodup (nodup_sources _) hslot]
    refine List.map_congr_left fun key _ => ?_
    rw [rowOf, destinations_concat]
    split
    · rename_i heq
      rw [Mention.addTo_eq heq.symm]
    · rename_i hne
      rw [Mention.destinationFrom?, if_neg (Ne.symm hne), Option.toList_none, List.append_nil]
  · show ((found.rows.modify slot mention.addTo).flatMap (·.destinations)).length = _
    rw [length_flatMap_modify hlt, List.countP_append, ← h.linkCount, ← hcount]
    rfl

end Holds

/-- The mentions can be taken one after the other, and the table holds them. The induction is on the
mentions, from the last one back. -/
theorem foldlM_record?_empty (mentions : List Mention) :
    mentions.foldlM LinkTable.record? .empty = some (ofMentions mentions) ∧
      (ofMentions mentions).Holds mentions := by
  induction mentions using List.reverseRecOn with
  | nil => exact ⟨rfl, holds_empty⟩
  | append_singleton mentions mention ih =>
    obtain ⟨hrun, hholds⟩ := ih
    obtain ⟨table, hrecord, htable⟩ := hholds.record? mention
    have heq : ofMentions (mentions ++ [mention]) = table := by
      rw [ofMentions, List.foldl_concat, ← ofMentions, record_of_record? hrecord]
    rw [heq]
    refine ⟨?_, htable⟩
    rw [List.foldlM_append, hrun]
    simpa using hrecord

/-- **The table groups the mentions by their sources**, which keep the order of their first uses. -/
theorem rows_ofMentions (mentions : List Mention) :
    (ofMentions mentions).rows = (sources mentions).map (rowOf mentions) :=
  (foldlM_record?_empty mentions).2.rows

/-- What a table tells about the mentions that it was filled from. -/
structure Files (table : LinkTable) (mentions : List Mention) : Prop where
  /-- The rows are those of the sources that are mentioned. -/
  mem_sources_iff : ∀ key,
    key ∈ table.rows.map (·.source) ↔ ∃ mention ∈ mentions, mention.source = key
  /-- Each source has one row, and the rows stand in the order of the first mentions. -/
  ordered : (table.rows.map (·.source)).Pairwise fun a b =>
    (mentions.map (·.source)).idxOf a < (mentions.map (·.source)).idxOf b
  /-- A row has the line of the first mention of its source. -/
  line : ∀ row ∈ table.rows,
    (mentions.find? (·.source = row.source)).map (·.line) = some row.line
  /-- It has the destinations of all links that leave its source, in the order of the links. -/
  destinations : ∀ row ∈ table.rows,
    row.destinations = ChainDiagram.destinations mentions row.source
  /-- No link is lost. -/
  linkCount : table.linkCount = mentions.countP (·.destination?.isSome)
  /-- The index leads from each source to its row, and from nothing else to anything. -/
  slot?_eq_some_iff : ∀ source slot,
    table.slot? source = some slot ↔ ∃ row, table.rows[slot]? = some row ∧ row.source = source
  /-- A source that has a row is not made one again. -/
  addSource : ∀ row ∈ table.rows, ∀ line, table.addSource row.source line = table

theorem Holds.files {table : LinkTable} {mentions : List Mention} (h : table.Holds mentions) :
    table.Files mentions := by
  have hsources : table.rows.map (·.source) = sources mentions := by
    rw [h.rows, List.map_map]
    exact List.map_id _
  have hrow : ∀ row ∈ table.rows,
      row.source ∈ sources mentions ∧ rowOf mentions row.source = row := by
    intro row hrow
    rw [h.rows] at hrow
    obtain ⟨source, hsource, rfl⟩ := List.mem_map.1 hrow
    exact ⟨hsource, rfl⟩
  refine ⟨fun key => hsources ▸ ChainDiagram.mem_sources_iff, ?_, fun row hmem => ?_,
    fun row hmem => ?_, h.linkCount, fun source slot => ?_, fun row hmem line => ?_⟩
  · rw [hsources]
    exact pairwise_idxOf_eraseDups _
  · obtain ⟨hsource, heq⟩ := hrow row hmem
    obtain ⟨mention, hmention, hsame⟩ := ChainDiagram.mem_sources_iff.1 hsource
    obtain ⟨first, hfirst⟩ := Option.isSome_iff_exists.1
      (List.find?_isSome.2 ⟨mention, hmention, decide_eq_true hsame⟩ :
        (mentions.find? (·.source = row.source)).isSome)
    rw [hfirst, Option.map_some, ← congrArg LinkRow.line heq, rowOf, firstLine, hfirst,
      Option.map_some, Option.getD_some]
  · exact congrArg LinkRow.destinations (hrow row hmem).2.symm
  · rw [h.slot?_eq_some_iff, ← hsources, List.getElem?_map, Option.map_eq_some_iff]
  · obtain ⟨slot, hslot⟩ := List.mem_iff_getElem?.1 (hrow row hmem).1
    rw [LinkTable.addSource, sourceSlot_of_some ((h.slot?_eq_some_iff _ _).2 hslot)]

end LinkTable

/-- **A link table is a record of its mentions.** Whatever is mentioned, and in whatever order, each
link finds a row for its source, and the table that is filled tells, for every source that was
mentioned, the line of its first mention and all links that leave it. -/
theorem mentions_are_filed (mentions : List Mention) :
    mentions.foldlM LinkTable.record? .empty = some (.ofMentions mentions) ∧
      (LinkTable.ofMentions mentions).Files mentions := by
  obtain ⟨hrun, hholds⟩ := LinkTable.foldlM_record?_empty mentions
  exact ⟨hrun, hholds.files⟩

/-- Links from two sources by turns, one of them twice, and a node that stands alone. -/
example :
    LinkTable.ofMentions [⟨⟨.other, "a"⟩, some ⟨.other, "b"⟩, 1⟩,
        ⟨⟨.rectangle, "a"⟩, some ⟨.other, "a"⟩, 2⟩, ⟨⟨.other, "a"⟩, some ⟨.other, "b"⟩, 3⟩,
        ⟨⟨.other, "b"⟩, none, 4⟩] =
      ⟨[⟨⟨.other, "a"⟩, 1, [(⟨.other, "b"⟩, 1), (⟨.other, "b"⟩, 3)]⟩,
          ⟨⟨.rectangle, "a"⟩, 2, [(⟨.other, "a"⟩, 2)]⟩, ⟨⟨.other, "b"⟩, 4, []⟩],
        [(⟨.other, "b"⟩, 2), (⟨.rectangle, "a"⟩, 1), (⟨.other, "a"⟩, 0)]⟩ := by
  decide

/-! ## What a chain mentions -/

/-- A link mentions its source with its destination, whichever way it is written. -/
def Mention.ofLink (line : Nat) (left : Element) (arrow : Arrow) (right : Element) : Mention :=
  ⟨(arrow.ends left.key right.key).1, some (arrow.ends left.key right.key).2, line⟩

/-- What a chain mentions: its links from left to right, or its only element. -/
def Chain.mentions (chain : Chain) (line : Nat) : List Mention :=
  match chain.elements with
  | [only] => [⟨only.key, none, line⟩]
  | _ => chain.links.map fun (left, arrow, right) => .ofLink line left arrow right

/-- A chain of two or more mentions its links. -/
theorem Chain.mentions_eq_map_links {chain : Chain} (htwo : 2 ≤ chain.elements.length)
    (line : Nat) :
    chain.mentions line =
      chain.links.map fun (left, arrow, right) => .ofLink line left arrow right := by
  rw [Chain.mentions]
  split
  · rename_i only honly
    simp [honly] at htwo
  · rfl

theorem adjacentPairs_map {α β : Type} (f : α → β) (l : List α) :
    adjacentPairs (l.map f) = (adjacentPairs l).map (Prod.map f f) := by
  cases l with
  | nil => rfl
  | cons a l =>
    show ((a :: l).map f).zip (l.map f) = ((a :: l).zip l).map (Prod.map f f)
    rw [List.zip_map]

/-- Two neighbours are elements of the list. -/
theorem mem_of_mem_adjacentPairs {α : Type} {l : List α} {pair : α × α}
    (h : pair ∈ adjacentPairs l) : pair.1 ∈ l ∧ pair.2 ∈ l := by
  cases l with
  | nil => cases h
  | cons a l =>
    obtain ⟨hfst, hsnd⟩ := List.of_mem_zip h
    exact ⟨hfst, List.mem_cons_of_mem a hsnd⟩

/-- In a list of two or more, every element has a neighbour. -/
theorem exists_mem_adjacentPairs {α : Type} {a b c : α} {l : List α} (h : c ∈ a :: b :: l) :
    ∃ pair ∈ adjacentPairs (a :: b :: l), pair.1 = c ∨ pair.2 = c := by
  induction l generalizing a b with
  | nil =>
    refine ⟨(a, b), List.mem_cons_self, ?_⟩
    simpa [eq_comm] using h
  | cons d l ih =>
    rcases List.mem_cons.1 h with rfl | h
    · exact ⟨(c, b), List.mem_cons_self, .inl rfl⟩
    · obtain ⟨pair, hpair, hc⟩ := ih h
      exact ⟨pair, List.mem_cons_of_mem _ hpair, hc⟩

/-- **A chain adds what it mentions.** -/
theorem Draft.addLinks_eq_foldl (line : Nat) (table : LinkTable) (chain : Chain) :
    Draft.addLinks line table (chain.elements.map Element.key) chain.arrows =
      (chain.mentions line).foldl LinkTable.record table := by
  obtain ⟨elements, arrows⟩ := chain
  match elements with
  | [] => rfl
  | [only] => rfl
  | a :: b :: rest =>
    simp only [Chain.mentions, Chain.links, List.foldl_map]
    show List.foldl _ table ((adjacentPairs ((a :: b :: rest).map Element.key)).zip arrows) = _
    rw [adjacentPairs_map, List.zip_map_left, List.foldl_map]
    rfl

theorem Mention.involves_ofLink_iff {line : Nat} {left right : Element} {arrow : Arrow}
    {key : NodeKey} :
    (Mention.ofLink line left arrow right).Involves key ↔ key = left.key ∨ key = right.key := by
  cases arrow with
  | forward => simp [Involves, ofLink, eq_comm]
  | backward => simp [Involves, ofLink, eq_comm, or_comm]

/-- The two ends of a link are elements of its chain. -/
theorem Chain.mem_of_mem_links {chain : Chain} {left right : Element} {arrow : Arrow}
    (h : (left, arrow, right) ∈ chain.links) : left ∈ chain.elements ∧ right ∈ chain.elements := by
  obtain ⟨link, hmem, hlink⟩ := List.mem_map.1 h
  cases hlink
  exact mem_of_mem_adjacentPairs (List.of_mem_zip hmem).1

/-- With one arrow between any two neighbours, every pair of neighbours is linked. -/
theorem Chain.exists_mem_links {chain : Chain}
    (hlength : chain.elements.length = chain.arrows.length + 1) {pair : Element × Element}
    (h : pair ∈ adjacentPairs chain.elements) :
    ∃ arrow, (pair.1, arrow, pair.2) ∈ chain.links := by
  have hfst : ((adjacentPairs chain.elements).zip chain.arrows).map Prod.fst =
      adjacentPairs chain.elements := by
    refine List.map_fst_zip ?_
    rw [length_adjacentPairs]
    omega
  rw [← hfst, List.mem_map] at h
  obtain ⟨⟨pair, arrow⟩, hmem, rfl⟩ := h
  exact ⟨arrow, List.mem_map.2 ⟨_, hmem, rfl⟩⟩

/-- Only elements of the chain are mentioned. -/
theorem Chain.exists_element_of_involves {chain : Chain} {line : Nat} {mention : Mention}
    {key : NodeKey} (h : mention ∈ chain.mentions line) (hkey : mention.Involves key) :
    ∃ element ∈ chain.elements, element.key = key := by
  rw [Chain.mentions] at h
  split at h
  · rename_i only honly
    rw [List.mem_singleton.1 h, Mention.Involves] at hkey
    exact ⟨only, honly ▸ List.mem_cons_self, (hkey.resolve_right (nomatch ·)).symm⟩
  · obtain ⟨⟨left, arrow, right⟩, hlink, rfl⟩ := List.mem_map.1 h
    obtain ⟨hleft, hright⟩ := Chain.mem_of_mem_links hlink
    rcases Mention.involves_ofLink_iff.1 hkey with rfl | rfl
    · exact ⟨left, hleft, rfl⟩
    · exact ⟨right, hright, rfl⟩

/-- **Each element of a chain is mentioned**, as the source of a link or as its destination. -/
theorem Chain.exists_mention_of_mem {chain : Chain}
    (hlength : chain.elements.length = chain.arrows.length + 1) {element : Element}
    (h : element ∈ chain.elements) (line : Nat) :
    ∃ mention ∈ chain.mentions line, mention.Involves element.key := by
  rw [Chain.mentions]
  split
  · rename_i only honly
    rw [honly, List.mem_singleton] at h
    exact ⟨_, List.mem_cons_self, .inl (congrArg Element.key h)⟩
  · rename_i hmany
    match helements : chain.elements, hmany with
    | [], _ => rw [helements] at h; cases h
    | [only], hmany => exact absurd rfl (hmany only)
    | a :: b :: rest, _ =>
      rw [helements] at h
      obtain ⟨pair, hpair, hends⟩ := exists_mem_adjacentPairs h
      obtain ⟨arrow, hlink⟩ := Chain.exists_mem_links hlength (helements ▸ hpair)
      refine ⟨_, List.mem_map_of_mem hlink, Mention.involves_ofLink_iff.2 ?_⟩
      exact hends.imp (fun h => congrArg Element.key h.symm) (fun h => congrArg Element.key h.symm)

end ChainDiagram
