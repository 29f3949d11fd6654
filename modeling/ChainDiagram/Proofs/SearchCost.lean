import ChainDiagram.Proofs.LongestChain

/-!
# What the search for the longest chain costs

`Graph.boundedSearch` and `Graph.longestChain` are two searches. They take the same way, but the
former pays one step for each call out of a budget, and gives up when nothing is left.

To compare them, the search without a budget is run once more with a counter beside it
(`Graph.countedSearch`). The counter changes nothing about the chain
(`Graph.fst_countedSearch`), and the bounded search pays exactly what the counter shows.

## What is here

* `charge cost a`: a computation that costs so many steps and answers `a`. Two of them one after the
  other cost the sum (`charge_bind`).
* `Graph.foldlM_boundedStep`: the loop over the links of a node pays for what it has called.
* `Graph.boundedSearch_eq_charge`: so does the whole search.
-/

set_option autoImplicit false

namespace ChainDiagram

/-! ## Paying for a result -/

/-- Pays for a result out of a budget, and answers it with what is left. Without enough budget there
is no result. -/
def charge {α : Type} (cost : Nat) (a : α) (budget : Nat) : Option (α × Nat) :=
  if budget < cost then none else some (a, budget - cost)

section Charge

variable {α β : Type}

/-- **Costs add up**: who pays for one thing and then for another pays for both. -/
theorem charge_bind (cost cost' : Nat) (a : α) (b : β) (budget : Nat) :
    ((charge cost a budget).bind fun paid => charge cost' b paid.2) =
      charge (cost + cost') b budget := by
  rw [charge, charge]
  by_cases hfirst : budget < cost
  · rw [if_pos hfirst, if_pos (by omega), Option.bind_none]
  · rw [if_neg hfirst, Option.bind_some, charge]
    by_cases hsecond : budget - cost < cost'
    · rw [if_pos hsecond, if_pos (by omega)]
    · rw [if_neg hsecond, if_neg (by omega), Nat.sub_sub]

/-- What is done with a result costs nothing more. -/
theorem charge_map (cost : Nat) (a : α) (f : α → β) (budget : Nat) :
    (charge cost a budget).map (fun paid => (f paid.1, paid.2)) = charge cost (f a) budget := by
  rw [charge, charge]
  split <;> rfl

theorem fst_of_charge_eq_some {cost budget : Nat} {a : α} {paid : α × Nat}
    (h : charge cost a budget = some paid) : paid.1 = a := by
  rw [charge] at h
  split at h
  · cases h
  · rw [← Option.some.inj h]

end Charge

namespace Graph

/-! ## Counting the calls -/

/-- One turn of the loop over the links of a node, with a counter of the calls so far. -/
def countedStep (visited : List Nat) (branch : Nat → List Nat × Nat) (state : List Nat × Nat)
    (a : Nat) : List Nat × Nat :=
  if a ∈ visited then state else (longer state.1 (branch a).1, state.2 + (branch a).2)

/-- The search for the longest chain with a counter: it answers the chain and how many calls the
search makes to find it, itself included. A call for what is no node counts like any other. -/
def countedSearch (g : Graph) (start : Nat) (visited : List Nat) : List Nat × Nat :=
  match _h : g.node? start with
  | none => ([], 1)
  | some node =>
    let (best, calls) := node.adjacents.foldl
      (fun state a =>
        if a ∈ visited then state
        else
          let (candidate, calls) := g.countedSearch a (a :: start :: visited)
          (longer state.1 candidate, state.2 + calls))
      ([], 1)
    (start :: best, calls)
termination_by g.searchMeasure start visited
decreasing_by exact searchMeasure_lt _h ‹_›

theorem countedSearch_of_none {g : Graph} {start : Nat} (h : g.node? start = none)
    (visited : List Nat) : g.countedSearch start visited = ([], 1) := by
  rw [countedSearch]
  split
  · rfl
  · rename_i node hnode
    exact absurd (h.symm.trans hnode) (by simp)

theorem countedSearch_of_some {g : Graph} {start : Nat} {node : Node}
    (h : g.node? start = some node) (visited : List Nat) :
    g.countedSearch start visited =
      (node.adjacents.foldl
        (countedStep visited fun a => g.countedSearch a (a :: start :: visited)) ([], 1)).map
          (start :: ·) id := by
  rw [countedSearch]
  split
  · rename_i hnone
    exact absurd (h.symm.trans hnone) (by simp)
  · rename_i node' hnode
    rw [Option.some.inj (h.symm.trans hnode)]
    rfl

/-- The counter only watches. -/
theorem fst_foldl_countedStep {visited : List Nat} {branch : Nat → List Nat × Nat}
    (adjacents : List Nat) (state : List Nat × Nat) :
    (adjacents.foldl (countedStep visited branch) state).1 =
      adjacents.foldl
        (fun best a => if a ∈ visited then best else longer best (branch a).1) state.1 := by
  induction adjacents generalizing state with
  | nil => rfl
  | cons a adjacents ih =>
    rw [List.foldl_cons, List.foldl_cons, ih, countedStep]
    split <;> rfl

/-- **Counting does not change the search**: the chain is the one that is found without a
counter. -/
theorem fst_countedSearch (g : Graph) (start : Nat) (visited : List Nat) :
    (g.countedSearch start visited).1 = g.longestChain start visited := by
  induction start, visited using longestChain.induct g with
  | case1 start visited hnode =>
    rw [countedSearch_of_none hnode, longestChain_of_none hnode]
  | case2 start visited node hnode ih =>
    rw [countedSearch_of_some hnode, longestChain_of_some hnode, Prod.map_fst,
      fst_foldl_countedStep]
    refine congrArg (start :: ·) ?_
    congr 1
    funext best a
    split
    · rfl
    · rename_i ha
      rw [ih a ha]

/-- The loop only adds to the counter. -/
theorem le_snd_foldl_countedStep {visited : List Nat} {branch : Nat → List Nat × Nat}
    (adjacents : List Nat) (state : List Nat × Nat) :
    state.2 ≤ (adjacents.foldl (countedStep visited branch) state).2 := by
  induction adjacents generalizing state with
  | nil => exact Nat.le_refl _
  | cons a adjacents ih =>
    refine Nat.le_trans ?_ (ih _)
    rw [countedStep]
    split
    · exact Nat.le_refl _
    · exact Nat.le_add_right _ _

/-- The call itself is counted. -/
theorem one_le_snd_countedSearch (g : Graph) (start : Nat) (visited : List Nat) :
    1 ≤ (g.countedSearch start visited).2 := by
  cases hnode : g.node? start with
  | none => rw [countedSearch_of_none hnode]
  | some node =>
    rw [countedSearch_of_some hnode]
    exact le_snd_foldl_countedStep node.adjacents ([], 1)

/-! ## Paying for the calls -/

/-- One turn of the loop over the links of a node, with the budget that is left. -/
def boundedStep (visited : List Nat) (branch : Nat → Nat → Option (List Nat × Nat))
    (state : List Nat × Nat) (a : Nat) : Option (List Nat × Nat) :=
  if a ∈ visited then some state
  else (branch a state.2).map fun paid => (longer state.1 paid.1, paid.2)

theorem boundedSearch_of_none {g : Graph} {start : Nat} (h : g.node? start = none)
    (visited : List Nat) (budget : Nat) :
    g.boundedSearch start visited budget = charge 1 [] budget := by
  cases budget with
  | zero => rw [boundedSearch]; rfl
  | succ budget =>
    rw [boundedSearch]
    split
    · rfl
    · rename_i node hnode
      exact absurd (h.symm.trans hnode) (by simp)

theorem boundedSearch_of_some {g : Graph} {start : Nat} {node : Node}
    (h : g.node? start = some node) (visited : List Nat) (budget : Nat) :
    g.boundedSearch start visited budget =
      ((charge 1 [] budget).bind (node.adjacents.foldlM
        (boundedStep visited fun a => g.boundedSearch a (a :: start :: visited)))).map
          fun paid => (start :: paid.1, paid.2) := by
  cases budget with
  | zero => rw [boundedSearch]; rfl
  | succ budget =>
    rw [boundedSearch]
    split
    · rename_i hnone
      exact absurd (h.symm.trans hnone) (by simp)
    · rename_i node' hnode
      rw [Option.some.inj (h.symm.trans hnode)]
      show _ = Option.map _ (node'.adjacents.foldlM _ ([], budget))
      rw [Option.map_eq_bind]
      refine congrArg (Option.bind · _) ?_
      congr 1
      funext state a
      obtain ⟨best, left⟩ := state
      by_cases ha : a ∈ visited
      · simp only [boundedStep, if_pos ha]
      · simp only [boundedStep, if_neg ha, Option.map_eq_bind]
        rfl

/-- One turn of the loop pays for the call that it makes. -/
theorem charge_bind_boundedStep {visited : List Nat} {branch : Nat → Nat → Option (List Nat × Nat)}
    {counted : Nat → List Nat × Nat} {a : Nat}
    (hbranch : a ∉ visited → ∀ budget,
      branch a budget = charge (counted a).2 (counted a).1 budget)
    (state : List Nat × Nat) (budget : Nat) :
    ((charge state.2 state.1 budget).bind fun paid => boundedStep visited branch paid a) =
      charge (countedStep visited counted state a).2 (countedStep visited counted state a).1
        budget := by
  by_cases ha : a ∈ visited
  · simp only [boundedStep, countedStep, if_pos ha, Option.bind_fun_some]
  · rw [countedStep, if_neg ha, ← charge_bind state.2 _ state.1]
    refine Option.bind_congr fun paid hpaid => ?_
    have hbest : paid.1 = state.1 := fst_of_charge_eq_some hpaid
    rw [boundedStep, if_neg ha, hbranch ha, charge_map, hbest]

/-- **The loop pays for the calls that it makes.** If everything up to now has been paid, then so is
everything behind the loop. -/
theorem foldlM_boundedStep {visited : List Nat} {branch : Nat → Nat → Option (List Nat × Nat)}
    {counted : Nat → List Nat × Nat}
    (hbranch : ∀ a, a ∉ visited → ∀ budget,
      branch a budget = charge (counted a).2 (counted a).1 budget)
    (adjacents : List Nat) (state : List Nat × Nat) (budget : Nat) :
    (charge state.2 state.1 budget).bind (adjacents.foldlM (boundedStep visited branch)) =
      charge (adjacents.foldl (countedStep visited counted) state).2
        (adjacents.foldl (countedStep visited counted) state).1 budget := by
  induction adjacents generalizing state with
  | nil => exact Option.bind_fun_some _
  | cons a adjacents ih =>
    rw [List.foldl_cons, ← ih, ← charge_bind_boundedStep (hbranch a), Option.bind_assoc]
    rfl

/-- **The bounded search pays for the calls of the search without a budget**, and answers its
chain. -/
theorem boundedSearch_eq_charge (g : Graph) (start : Nat) (visited : List Nat) (budget : Nat) :
    g.boundedSearch start visited budget =
      charge (g.countedSearch start visited).2 (g.longestChain start visited) budget := by
  rw [← fst_countedSearch]
  induction start, visited using longestChain.induct g generalizing budget with
  | case1 start visited hnode =>
    rw [boundedSearch_of_none hnode, countedSearch_of_none hnode]
  | case2 start visited node hnode ih =>
    rw [boundedSearch_of_some hnode, countedSearch_of_some hnode,
      foldlM_boundedStep ih node.adjacents ([], 1), charge_map]
    rfl

/-- The search with a limit finds the longest chain, or nothing. -/
theorem chainWithin?_eq (g : Graph) (start limit : Nat) :
    g.chainWithin? start limit =
      if limit < (g.countedSearch start []).2 then none else some (g.chainFrom start) := by
  rw [chainWithin?, boundedSearch_eq_charge, charge]
  split <;> rfl

/-- **The budget that suffices is the number of calls.** For every graph and every start, the search
without a budget makes some number of calls, at least one. With fewer steps the bounded search
answers nothing; with that many or more it answers the longest chain, and the steps beyond that
number are left. -/
theorem chainWithin?_threshold (g : Graph) (start : Nat) :
    ∃ calls, 1 ≤ calls ∧ g.countedSearch start [] = (g.chainFrom start, calls) ∧
      ∀ limit,
        g.boundedSearch start [] limit =
          (if limit < calls then none else some (g.chainFrom start, limit - calls)) ∧
        g.chainWithin? start limit =
          if limit < calls then none else some (g.chainFrom start) := by
  refine ⟨(g.countedSearch start []).2, g.one_le_snd_countedSearch start [], ?_, fun limit => ?_⟩
  · rw [chainFrom, ← fst_countedSearch]
  · exact ⟨g.boundedSearch_eq_charge start [] limit, g.chainWithin?_eq start limit⟩

/-- A node with a link to itself, between two links to what is no node, is visited twice. With the
two calls for what is no node, these are three calls each time. -/
example :
    let g : Graph := ⟨#[⟨0, "a", "A", .rectangle, [9, 0, 9]⟩]⟩
    g.boundedSearch 0 [] 5 = none ∧ g.boundedSearch 0 [] 6 = some ([0, 0], 0) := by cbv

end Graph

end ChainDiagram
