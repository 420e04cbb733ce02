import Mathlib.Logic.Function.Basic

/-!
# What spreads from party to party

Parties meet two at a time.  At a meeting the one gives, the other takes, and only
the one that takes changes.  Something spreads if the taker knows it after a meeting
exactly when the giver or the taker knew it before.

`knows_run_iff` says who knows it after a list of meetings: those to whom a chain of
these meetings, in their order, leads from a party that knew it at the start.
`knows_rounds_iff` is the same for rounds in each of which all neighbours meet, as
many of them as the parties are apart.
-/

namespace Spread

/-- Who gives and who takes at a meeting, and what the taker is afterwards. -/
structure Rule (Party State Meeting : Type) where
  giver : Meeting → Party
  taker : Meeting → Party
  take : Meeting → State → State → State

variable {Party State Meeting : Type} [DecidableEq Party]

namespace Rule

/-- One meeting. -/
def meet (R : Rule Party State Meeting) (states : Party → State) (m : Meeting) :
    Party → State :=
  Function.update states (R.taker m)
    (R.take m (states (R.giver m)) (states (R.taker m)))

/-- A list of meetings. -/
def run (R : Rule Party State Meeting) (states : Party → State) (l : List Meeting) :
    Party → State :=
  l.foldl R.meet states

/-- Each of the meetings starts where the one before has led. -/
inductive Chain (R : Rule Party State Meeting) : Party → List Meeting → Party → Prop
  | nil (x : Party) : Chain R x [] x
  | cons (m : Meeting) {l : List Meeting} {y : Party} (h : Chain R (R.taker m) l y) :
      Chain R (R.giver m) (m :: l) y

/-- `Knows` spreads by the meetings in the list, among parties whose states are `Good`. -/
structure Spreads (R : Rule Party State Meeting) (Good Knows : State → Prop)
    (l : List Meeting) : Prop where
  good : ∀ m ∈ l, ∀ a b, Good a → Good b → Good (R.take m a b)
  knows : ∀ m ∈ l, ∀ a b, Good a → Good b → (Knows (R.take m a b) ↔ Knows a ∨ Knows b)

variable {R : Rule Party State Meeting} {Good Knows : State → Prop} {states : Party → State}
  {l : List Meeting} {m : Meeting} {x y : Party}

theorem meet_apply : R.meet states m x =
    if x = R.taker m then R.take m (states (R.giver m)) (states (R.taker m)) else states x := by
  show Function.update states (R.taker m) (R.take m (states (R.giver m)) (states (R.taker m))) x = _
  rw [Function.update_apply]

omit [DecidableEq Party] in
theorem Spreads.tail (h : R.Spreads Good Knows (m :: l)) : R.Spreads Good Knows l where
  good m' hm := h.good m' (List.mem_cons_of_mem m hm)
  knows m' hm := h.knows m' (List.mem_cons_of_mem m hm)

theorem Spreads.good_meet (h : R.Spreads Good Knows (m :: l)) (hgood : ∀ x, Good (states x))
    (x : Party) : Good (R.meet states m x) := by
  rw [meet_apply]
  split
  · exact h.good m List.mem_cons_self _ _ (hgood _) (hgood _)
  · exact hgood x

/-- **Who knows it after one meeting.** -/
theorem Spreads.knows_meet (h : R.Spreads Good Knows (m :: l)) (hgood : ∀ x, Good (states x)) :
    Knows (R.meet states m x) ↔
      Knows (states x) ∨ (x = R.taker m ∧ Knows (states (R.giver m))) := by
  rw [meet_apply]
  split
  · rename_i hx
    rw [h.knows m List.mem_cons_self _ _ (hgood _) (hgood _), or_comm, and_iff_right hx, hx]
  · rename_i hx
    exact (or_iff_left fun hboth => hx hboth.1).symm

theorem Spreads.good_run (h : R.Spreads Good Knows l) (hgood : ∀ x, Good (states x)) :
    ∀ x, Good (R.run states l x) := by
  induction l generalizing states with
  | nil => exact hgood
  | cons m l ih =>
    rw [run, List.foldl_cons]
    exact ih h.tail (h.good_meet hgood)

/-- **Who knows it after a list of meetings**: those to whom a chain of them leads. -/
theorem knows_run_iff (h : R.Spreads Good Knows l) (hgood : ∀ x, Good (states x)) :
    Knows (R.run states l y) ↔
      ∃ x chain, chain.Sublist l ∧ R.Chain x chain y ∧ Knows (states x) := by
  induction l generalizing states with
  | nil =>
    constructor
    · intro hy
      exact ⟨y, [], List.Sublist.refl _, Chain.nil y, hy⟩
    · rintro ⟨x, chain, hsub, hchain, hx⟩
      rw [List.sublist_nil] at hsub
      subst hsub
      cases hchain
      exact hx
  | cons m l ih =>
    rw [run, List.foldl_cons]
    refine (ih h.tail (h.good_meet hgood)).trans ?_
    constructor
    · rintro ⟨x, chain, hsub, hchain, hx⟩
      rcases (h.knows_meet hgood).mp hx with hx | ⟨rfl, hgiver⟩
      · exact ⟨x, chain, hsub.cons m, hchain, hx⟩
      · exact ⟨R.giver m, m :: chain, hsub.cons_cons m, Chain.cons m hchain, hgiver⟩
    · rintro ⟨x, chain, hsub, hchain, hx⟩
      cases hsub with
      | cons _ hsub =>
        exact ⟨x, chain, hsub, hchain, (h.knows_meet hgood).mpr (Or.inl hx)⟩
      | cons_cons _ hsub =>
        cases hchain with
        | cons _ hchain =>
          exact ⟨R.taker m, _, hsub, hchain, (h.knows_meet hgood).mpr (Or.inr ⟨rfl, hx⟩)⟩

/-! ### Rounds -/

/-- At most so many steps from neighbour to neighbour lead from the one to the other. -/
def Apart (neighbours : Party → Party → Prop) : Nat → Party → Party → Prop
  | 0, x, y => x = y
  | n + 1, x, y => x = y ∨ ∃ z, neighbours x z ∧ Apart neighbours n z y

omit [DecidableEq Party] in
/-- **Enough rounds hold a chain.** -/
theorem exists_chain {neighbours : Party → Party → Prop} {rounds : List (List Meeting)}
    (hmeet : ∀ round ∈ rounds, ∀ x z, neighbours x z →
      ∃ m ∈ round, R.giver m = x ∧ R.taker m = z) (h : Apart neighbours rounds.length x y) :
    ∃ chain, chain.Sublist rounds.flatten ∧ R.Chain x chain y := by
  induction rounds generalizing x with
  | nil =>
    obtain rfl := h
    exact ⟨[], List.nil_sublist _, Chain.nil _⟩
  | cons round rounds ih =>
    rcases h with rfl | ⟨z, hz, h⟩
    · exact ⟨[], List.nil_sublist _, Chain.nil _⟩
    · -- the first step is a meeting of the first round
      obtain ⟨m, hm, rfl, rfl⟩ := hmeet round List.mem_cons_self x z hz
      obtain ⟨chain, hsub, hchain⟩ := ih
        (fun round' hround => hmeet round' (List.mem_cons_of_mem round hround)) h
      refine ⟨m :: chain, ?_, Chain.cons m hchain⟩
      rw [List.flatten_cons]
      exact (List.singleton_sublist.mpr hm).append hsub

/-- **After enough rounds everyone knows what anyone knew.** -/
theorem knows_rounds_iff {neighbours : Party → Party → Prop} {rounds : List (List Meeting)}
    (h : R.Spreads Good Knows rounds.flatten) (hgood : ∀ x, Good (states x))
    (hmeet : ∀ round ∈ rounds, ∀ x z, neighbours x z →
      ∃ m ∈ round, R.giver m = x ∧ R.taker m = z)
    (hnear : ∀ x y, Apart neighbours rounds.length x y) :
    Knows (R.run states rounds.flatten y) ↔ ∃ x, Knows (states x) := by
  refine (knows_run_iff h hgood).trans ⟨?_, ?_⟩
  · rintro ⟨x, chain, _, _, hx⟩
    exact ⟨x, hx⟩
  · rintro ⟨x, hx⟩
    obtain ⟨chain, hsub, hchain⟩ := exists_chain hmeet (hnear x y)
    exact ⟨x, chain, hsub, hchain, hx⟩

end Rule

end Spread
