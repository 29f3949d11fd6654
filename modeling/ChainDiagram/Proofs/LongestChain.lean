import Mathlib.Data.List.Chain
import ChainDiagram.Graph.LongestChain

/-!
# The longest chain is the longest, and the first of the longest

`Graph.longestChain` is a search. What it searches for is said here on its own: the chains that it
may answer (`Graph.Admissible`), and which of two equally long ones comes first (`Graph.Earlier`).

## What is here

* `Graph.admissible_cons_iff`: a chain goes on from its second node as a chain that has visited one
  node more. The search descends along this equivalence.
* `BestBranch`: what the loop over the links of a node has found so far.
* `Graph.longestChain_optimal`: the search answers an admissible chain, no admissible chain is
  longer, and each other one that is as long comes later.
-/

set_option autoImplicit false

namespace ChainDiagram

namespace Graph

/-! ## Chains that may be answered -/

/-- The node at index `a` has a link to `b`. -/
def LeadsTo (g : Graph) (a b : Nat) : Prop := ∃ node, g.node? a = some node ∧ b ∈ node.adjacents

/-- The list `start :: tail` is a chain from `start` that keeps away from `visited`. The start may
come again only as the node right behind it, which is a link of the start to itself. -/
structure Admissible (g : Graph) (visited : List Nat) (start : Nat) (tail : List Nat) : Prop where
  /-- Each node links to the next. -/
  links : (start :: tail).IsChain g.LeadsTo
  /-- All of them are nodes of the graph. -/
  known : ∀ i ∈ start :: tail, i < g.size
  nodup : tail.Nodup
  fresh : ∀ i ∈ tail, i ∉ visited
  no_return : start ∉ tail.tail

theorem admissible_nil {g : Graph} {visited : List Nat} {start : Nat} (h : start < g.size) :
    g.Admissible visited start [] where
  links := .singleton start
  known := by simpa using h
  nodup := List.nodup_nil
  fresh := List.forall_mem_nil _
  no_return := List.not_mem_nil

/-- **A chain goes on as a chain.** Behind the first link, the start and the node that the link
leads to have been visited. -/
theorem admissible_cons_iff {g : Graph} {visited : List Nat} {start a : Nat} {tail : List Nat} :
    g.Admissible visited start (a :: tail) ↔
      start < g.size ∧ g.LeadsTo start a ∧ a ∉ visited ∧
        g.Admissible (a :: start :: visited) a tail := by
  refine ⟨fun h => ?_, ?_⟩
  · obtain ⟨ha, htail⟩ := List.nodup_cons.1 h.nodup
    obtain ⟨hlink, hlinks⟩ := List.isChain_cons_cons.1 h.links
    obtain ⟨hstart, hknown⟩ := List.forall_mem_cons.1 h.known
    obtain ⟨havoid, hfresh⟩ := List.forall_mem_cons.1 h.fresh
    refine ⟨hstart, hlink, havoid, hlinks, hknown, htail, fun i hi => ?_, fun hmem => ?_⟩
    · have hne : i ≠ a := fun heq => ha (heq ▸ hi)
      have hreturn : i ≠ start := fun heq => h.no_return (heq ▸ hi)
      simp [hne, hreturn, hfresh i hi]
    · exact ha (List.mem_of_mem_tail hmem)
  · rintro ⟨hstart, hlink, havoid, h⟩
    have hout : ∀ i ∈ tail, i ≠ a ∧ i ≠ start ∧ i ∉ visited := fun i hi => by
      simpa using h.fresh i hi
    refine ⟨List.isChain_cons_cons.2 ⟨hlink, h.links⟩, List.forall_mem_cons.2 ⟨hstart, h.known⟩,
      List.nodup_cons.2 ⟨fun ha => (hout a ha).1 rfl, h.nodup⟩, ?_, ?_⟩
    · exact List.forall_mem_cons.2 ⟨havoid, fun i hi => (hout i hi).2.2⟩
    · exact fun hmem => (hout start hmem).2.1 rfl

/-- The first of two chains is the earlier one: where they part, it follows the link that its node
has further to the front. -/
def Earlier (g : Graph) (first second : List Nat) : Prop :=
  ∃ shared a b c rest rest' node,
    first = shared ++ a :: b :: rest ∧ second = shared ++ a :: c :: rest' ∧
      g.node? a = some node ∧ node.adjacents.idxOf b < node.adjacents.idxOf c

/-- What two chains have in common may be longer. -/
theorem Earlier.cons {g : Graph} {first second : List Nat} (h : g.Earlier first second)
    (start : Nat) : g.Earlier (start :: first) (start :: second) := by
  obtain ⟨shared, a, b, c, rest, rest', node, rfl, rfl, hnode, hlt⟩ := h
  exact ⟨start :: shared, a, b, c, rest, rest', node, rfl, rfl, hnode, hlt⟩

/-! ## The loop over the links of a node -/

/-- Among the branches into nodes that are not visited, `best` is the first of the longest. No
branch at all counts as the empty one. -/
structure BestBranch (visited : List Nat) (branch : Nat → List Nat) (adjacents best : List Nat) :
    Prop where
  length_le : ∀ a ∈ adjacents, a ∉ visited → (branch a).length ≤ best.length
  first : best = [] ∨ ∃ before a after, adjacents = before ++ a :: after ∧ a ∉ visited ∧
    best = branch a ∧ ∀ b ∈ before, b ∉ visited → (branch b).length < best.length

/-- The loop keeps the best branch. The induction is on the links that it has seen, from the last
one back. -/
theorem bestBranch_foldl (visited : List Nat) (branch : Nat → List Nat) (adjacents : List Nat) :
    BestBranch visited branch adjacents
      (adjacents.foldl
        (fun best a => if a ∈ visited then best else longer best (branch a)) []) := by
  induction adjacents using List.reverseRecOn with
  | nil => exact ⟨List.forall_mem_nil _, .inl rfl⟩
  | append_singleton adjacents a ih =>
    rw [List.foldl_concat]
    generalize adjacents.foldl _ [] = best at ih ⊢
    by_cases hvisited : a ∈ visited
    · rw [if_pos hvisited]
      refine ⟨fun b hb hb' => ?_, ?_⟩
      · rcases List.mem_append.1 hb with hb | hb
        · exact ih.length_le b hb hb'
        · exact absurd (List.mem_singleton.1 hb ▸ hvisited) hb'
      · rcases ih.first with h | ⟨before, b, after, rfl, hb⟩
        · exact .inl h
        · exact .inr ⟨before, b, after ++ [a], by simp, hb⟩
    · rw [if_neg hvisited, longer]
      split
      · rename_i hlt
        have hbefore : ∀ b ∈ adjacents, b ∉ visited → (branch b).length < (branch a).length :=
          fun b hb hb' => Nat.lt_of_le_of_lt (ih.length_le b hb hb') hlt
        refine ⟨fun b hb hb' => ?_, .inr ⟨adjacents, a, [], rfl, hvisited, rfl, hbefore⟩⟩
        rcases List.mem_append.1 hb with hb | hb
        · exact Nat.le_of_lt (hbefore b hb hb')
        · rw [List.mem_singleton.1 hb]
      · rename_i hle
        refine ⟨fun b hb hb' => ?_, ?_⟩
        · rcases List.mem_append.1 hb with hb | hb
          · exact ih.length_le b hb hb'
          · rw [List.mem_singleton.1 hb]
            exact Nat.not_lt.1 hle
        · rcases ih.first with h | ⟨before, b, after, rfl, hb⟩
          · exact .inl h
          · exact .inr ⟨before, b, after ++ [a], by simp, hb⟩

/-- A branch that is as long as the best one and no other name for it lies behind it. -/
theorem idxOf_lt_idxOf_of_bestBranch {before after : List Nat} {a b : Nat}
    (ha : a ∉ before) (hb : b ∉ before) (hne : b ≠ a) :
    (before ++ a :: after).idxOf a < (before ++ a :: after).idxOf b := by
  rw [List.idxOf_append_of_notMem ha, List.idxOf_append_of_notMem hb, List.idxOf_cons_self,
    List.idxOf_cons_ne after hne.symm]
  omega

/-! ## The search -/

/-- The chain `start :: tail` is the one that the search should answer: none is longer, and of those
that are as long it is the earliest. -/
structure Optimal (g : Graph) (visited : List Nat) (start : Nat) (tail : List Nat) : Prop where
  admissible : g.Admissible visited start tail
  length_le : ∀ other, g.Admissible visited start other → other.length ≤ tail.length
  earlier : ∀ other, g.Admissible visited start other → other.length = tail.length →
    other ≠ tail → g.Earlier (start :: tail) (start :: other)

theorem longestChain_of_none {g : Graph} {start : Nat} (h : g.node? start = none)
    (visited : List Nat) : g.longestChain start visited = [] := by
  rw [longestChain]
  split
  · rfl
  · rename_i node hnode
    exact absurd (h.symm.trans hnode) (by simp)

/-- What is no node starts no chain. -/
theorem longestChain_of_le {g : Graph} {start : Nat} (h : g.size ≤ start) (visited : List Nat) :
    g.longestChain start visited = [] := by
  refine longestChain_of_none ?_ visited
  rw [← Option.not_isSome_iff_eq_none, node?_isSome_iff]
  exact Nat.not_lt.2 h

theorem longestChain_of_some {g : Graph} {start : Nat} {node : Node}
    (h : g.node? start = some node) (visited : List Nat) :
    g.longestChain start visited =
      start :: node.adjacents.foldl
        (fun best a => if a ∈ visited then best
          else longer best (g.longestChain a (a :: start :: visited))) [] := by
  rw [longestChain]
  split
  · rename_i hnone
    exact absurd (h.symm.trans hnone) (by simp)
  · rename_i node' hnode
    rw [Option.some.inj (h.symm.trans hnode)]

/-- A chain that goes on leads to a node, which has an answer of its own. -/
theorem Admissible.lt_of_cons {g : Graph} {visited tail : List Nat} {start a : Nat}
    (h : g.Admissible visited start (a :: tail)) : a < g.size :=
  (List.forall_mem_cons.1 (List.forall_mem_cons.1 h.known).2).1

/-- **One step of the search.** If the answers for all branches are right, the best branch is the
right answer for the start. -/
theorem optimal_of_bestBranch {g : Graph} {visited best : List Nat} {start : Nat} {node : Node}
    {branch : Nat → List Nat} (hnode : g.node? start = some node)
    (hunknown : ∀ a, g.size ≤ a → branch a = [])
    (hbranch : ∀ a, a ∉ visited → a < g.size →
      ∃ tail, branch a = a :: tail ∧ g.Optimal (a :: start :: visited) a tail)
    (hbest : BestBranch visited branch node.adjacents best) : g.Optimal visited start best := by
  have hstart : start < g.size := node?_isSome_iff.1 (by rw [hnode]; rfl)
  -- Any chain that goes on is no longer than the branch that it takes.
  have hother : ∀ b other, g.Admissible visited start (b :: other) →
      b ∈ node.adjacents ∧ b ∉ visited ∧ other.length + 1 ≤ (branch b).length := by
    intro b other h
    obtain ⟨-, ⟨node', hnode', hb⟩, hvisited, hrest⟩ := admissible_cons_iff.1 h
    obtain rfl : node' = node := Option.some.inj (hnode'.symm.trans hnode)
    obtain ⟨tail, htail, hoptimal⟩ := hbranch b hvisited h.lt_of_cons
    refine ⟨hb, hvisited, ?_⟩
    rw [htail, List.length_cons]
    exact Nat.succ_le_succ (hoptimal.length_le other hrest)
  have hle : ∀ other, g.Admissible visited start other → other.length ≤ best.length := by
    intro other h
    cases other with
    | nil => exact Nat.zero_le _
    | cons b other =>
      obtain ⟨hb, hvisited, hlength⟩ := hother b other h
      exact hlength.trans (hbest.length_le b hb hvisited)
  by_cases hnil : best = []
  · subst hnil
    exact ⟨admissible_nil hstart, hle, fun other _ hlength hne =>
      absurd (List.length_eq_zero_iff.1 hlength) hne⟩
  obtain ⟨before, a, after, hadjacents, hvisited, rfl, hbefore⟩ := hbest.first.resolve_left hnil
  have ha : a < g.size := Nat.not_le.1 fun hge => hnil (hunknown a hge)
  obtain ⟨tail, htail, hoptimal⟩ := hbranch a hvisited ha
  rw [htail] at hle hbefore ⊢
  have hmem : a ∈ node.adjacents := by rw [hadjacents]; simp
  refine ⟨admissible_cons_iff.2 ⟨hstart, ⟨node, hnode, hmem⟩, hvisited, hoptimal.admissible⟩, hle,
    fun other h hlength hne => ?_⟩
  cases other with
  | nil => simp at hlength
  | cons b other =>
    by_cases hba : b = a
    · subst hba
      obtain ⟨-, -, -, hrest⟩ := admissible_cons_iff.1 h
      exact (hoptimal.earlier other hrest (by simpa using hlength) (by simpa using hne)).cons start
    · obtain ⟨-, hvisited', hlength'⟩ := hother b other h
      have hbefore_b : b ∉ before := fun hb => by
        have hlt := hbefore b hb hvisited'
        simp only [List.length_cons] at hlt hlength
        omega
      have hbefore_a : a ∉ before := fun ha => by
        have hlt := hbefore a ha hvisited
        rw [htail] at hlt
        exact Nat.lt_irrefl _ hlt
      refine ⟨[], start, a, b, tail, other, node, rfl, rfl, hnode, ?_⟩
      rw [hadjacents]
      exact idxOf_lt_idxOf_of_bestBranch hbefore_a hbefore_b hba

/-- The search answers the start and an optimal tail. The induction follows the search; by then
each branch has one node more to keep away from. -/
theorem longestChain_eq_cons {g : Graph} {start : Nat} (visited : List Nat)
    (h : start < g.size) :
    ∃ tail, g.longestChain start visited = start :: tail ∧ g.Optimal visited start tail := by
  induction start, visited using longestChain.induct g with
  | case1 start visited hnode => exact absurd (node?_isSome_iff.2 h) (by rw [hnode]; simp)
  | case2 start visited node hnode ih =>
    refine ⟨_, longestChain_of_some hnode visited, ?_⟩
    exact optimal_of_bestBranch hnode (fun a ha => longestChain_of_le ha _) ih
      (bestBranch_foldl visited _ node.adjacents)

/-- **The longest chain is the longest, and the first of the longest.** From a node of the graph,
the search answers a chain that keeps away from the visited nodes; no such chain is longer, and
where another one of the same length parts from it, the answer follows the earlier link. From what
is no node there is no chain. -/
theorem longestChain_optimal (g : Graph) (start : Nat) (visited : List Nat) :
    (start < g.size →
      ∃ tail, g.longestChain start visited = start :: tail ∧ g.Optimal visited start tail) ∧
    (g.size ≤ start → g.longestChain start visited = []) :=
  ⟨longestChain_eq_cons visited, fun h => longestChain_of_le h visited⟩

/-- A graph in which two chains from node 0 are longest. Node 0 has a link to what is no node, and
one to itself. The ids do not matter. -/
def forked : Graph :=
  ⟨#[⟨7, "a", "A", .rectangle, [9, 2, 1, 0]⟩, ⟨7, "b", "B", .rectangle, [3]⟩,
    ⟨7, "c", "C", .rectangle, [3]⟩, ⟨7, "d", "D", .rectangle, []⟩]⟩

/-- Of the two, the search answers the one through node 2. It follows the link of node 0 to itself
first. -/
theorem longestChain_optimal_forked :
    0 < forked.size ∧ forked.longestChain 0 [] = [0, 0, 2, 3] ∧
      ∃ tail, forked.longestChain 0 [] = 0 :: tail ∧ forked.Optimal [] 0 tail :=
  ⟨by decide, by cbv, (longestChain_optimal forked 0 []).1 (by decide)⟩

end Graph

end ChainDiagram
