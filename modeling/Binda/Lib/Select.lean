import Mathlib.Data.List.Sort
import Mathlib.Data.Finset.Card

/-!
# The first `k` of a list

`firstBy f k l` sorts `l` by the key `f` and keeps the first `k`.  When no two
members share a key, membership does not depend on how the list was laid out:
`mem_firstBy_iff` says a member is kept exactly when fewer than `k` others have
a smaller key.
-/

namespace Select

variable {α β : Type} [LinearOrder β]

/-- `l` sorted by the key `f`; members with one key keep their order. -/
def sortOn (f : α → β) (l : List α) : List α := l.insertionSort fun a b => f a ≤ f b

/-- The first `k` members of `l` in the order of the key `f`. -/
def firstBy (f : α → β) (k : Nat) (l : List α) : List α := (sortOn f l).take k

/-- How many members of `l` have a smaller key than `a`. -/
def rankIn (f : α → β) (l : List α) (a : α) : Nat := l.countP fun b => decide (f b < f a)

variable {f : α → β} {k : Nat} {l : List α}

theorem sortOn_perm (f : α → β) (l : List α) : (sortOn f l).Perm l :=
  List.perm_insertionSort _ l

theorem sortOn_pairwise (f : α → β) (l : List α) :
    (sortOn f l).Pairwise fun a b => f a ≤ f b := by
  have : Std.Total fun a b : α => f a ≤ f b := ⟨fun a b => le_total (f a) (f b)⟩
  have : IsTrans α fun a b => f a ≤ f b := ⟨fun _ _ _ => le_trans⟩
  exact List.pairwise_insertionSort _ l

theorem firstBy_length_le (f : α → β) (k : Nat) (l : List α) : (firstBy f k l).length ≤ k :=
  List.length_take_le k _

/-- In a list sorted strictly, a member's place is the number of smaller ones. -/
theorem mem_take_iff_of_strict : ∀ {l : List α} {k : Nat},
    l.Pairwise (fun a b => f a < f b) → ∀ {a : α}, a ∈ l.take k ↔ a ∈ l ∧ rankIn f l a < k := by
  intro l
  induction l with
  | nil => intro k _ a; simp
  | cons b l ih =>
    intro k hs a
    obtain ⟨hb, hl⟩ := List.pairwise_cons.mp hs
    cases k with
    | zero => simp
    | succ k =>
      rw [List.take_succ_cons, List.mem_cons, List.mem_cons]
      by_cases hab : a = b
      · -- nothing is smaller than the head
        subst hab
        have h0 : rankIn f l a = 0 := by
          rw [rankIn, List.countP_eq_zero]
          intro c hc
          simpa using (hb c hc).le
        have hr : rankIn f (a :: l) a = 0 := by
          rw [rankIn, List.countP_cons_of_neg (by simp)]
          exact h0
        simp [hr]
      · have hr : a ∈ l → rankIn f (b :: l) a = rankIn f l a + 1 := by
          intro ha
          rw [rankIn, List.countP_cons_of_pos (by simpa using hb a ha)]
          rfl
        rw [ih hl]
        constructor
        · rintro (rfl | ⟨ha, hk⟩)
          · exact absurd rfl hab
          · exact ⟨Or.inr ha, by rw [hr ha]; omega⟩
        · rintro ⟨rfl | ha, hk⟩
          · exact absurd rfl hab
          · rw [hr ha] at hk
            exact Or.inr ⟨ha, by omega⟩

theorem sortOn_strict (h : (l.map f).Nodup) :
    (sortOn f l).Pairwise fun a b => f a < f b := by
  have hne : (sortOn f l).Pairwise fun a b => f a ≠ f b :=
    List.pairwise_map.mp (((sortOn_perm f l).map f).nodup_iff.mpr h)
  exact ((sortOn_pairwise f l).and hne).imp fun hab => lt_of_le_of_ne hab.1 hab.2

/-- **Being among the first `k` is a matter of rank**, when no two members
share a key. -/
theorem mem_firstBy_iff (h : (l.map f).Nodup) {a : α} :
    a ∈ firstBy f k l ↔ a ∈ l ∧ rankIn f l a < k := by
  rw [firstBy, mem_take_iff_of_strict (sortOn_strict h), (sortOn_perm f l).mem_iff]
  have : rankIn f (sortOn f l) a = rankIn f l a := (sortOn_perm f l).countP_eq _
  rw [this]

theorem rankIn_le_length (f : α → β) (l : List α) (a : α) : rankIn f l a ≤ l.length :=
  List.countP_le_length

/-- A member is not smaller than itself, so its rank is below the length. -/
theorem rankIn_lt_length {a : α} (h : a ∈ l) : rankIn f l a < l.length := by
  refine lt_of_le_of_ne (rankIn_le_length f l a) fun he => ?_
  have := List.countP_eq_length.mp he a h
  simp at this

/-- A smaller key has no higher rank. -/
theorem rankIn_mono {a b : α} (h : f a ≤ f b) : rankIn f l a ≤ rankIn f l b := by
  refine List.countP_mono_left fun c _ hc => ?_
  rw [decide_eq_true_eq] at hc ⊢
  exact lt_of_lt_of_le hc h

/-- When `k` members come before some value, exactly `k` are kept. -/
theorem firstBy_length_of_le_rankIn {a : α} (h : k ≤ rankIn f l a) :
    (firstBy f k l).length = k := by
  have hlen : (sortOn f l).length = l.length := (sortOn_perm f l).length_eq
  rw [firstBy, List.length_take, hlen]
  exact Nat.min_eq_left (h.trans (rankIn_le_length f l a))

/-- In a list sorted strictly, those with smaller keys come first. -/
theorem rankIn_take_of_strict {a : α} : ∀ {l : List α} {k : Nat},
    l.Pairwise (fun a b => f a < f b) → rankIn f (l.take k) a = min k (rankIn f l a) := by
  intro l
  induction l with
  | nil => intro k _; simp [rankIn]
  | cons b l ih =>
    intro k hs
    obtain ⟨hb, hl⟩ := List.pairwise_cons.mp hs
    cases k with
    | zero => simp [rankIn]
    | succ k =>
      have hk := ih (k := k) hl
      rw [rankIn, rankIn] at hk
      rw [List.take_succ_cons, rankIn, rankIn, List.countP_cons, List.countP_cons, hk]
      by_cases hba : f b < f a
      · simp only [hba, decide_true, if_true]
        omega
      · -- nothing after `b` is smaller, either
        have h0 : l.countP (fun c => decide (f c < f a)) = 0 := by
          rw [List.countP_eq_zero]
          intro c hc hlt
          exact hba ((hb c hc).trans (of_decide_eq_true hlt))
        simp [h0, hba]

/-- **Among the first `k` a rank is cut at `k`.** -/
theorem rankIn_firstBy (h : (l.map f).Nodup) (a : α) :
    rankIn f (firstBy f k l) a = min k (rankIn f l a) := by
  have hperm : rankIn f (sortOn f l) a = rankIn f l a := (sortOn_perm f l).countP_eq _
  rw [firstBy, rankIn_take_of_strict (sortOn_strict h), hperm]

/-- The first `k` do not depend on how the list was laid out. -/
theorem mem_firstBy_congr {m : List α} (h : (l.map f).Nodup) (hp : l.Perm m) {a : α} :
    a ∈ firstBy f k l ↔ a ∈ firstBy f k m := by
  have hm : (m.map f).Nodup := (hp.map f).nodup_iff.mp h
  have hrank : rankIn f l a = rankIn f m a := hp.countP_eq _
  rw [mem_firstBy_iff h, mem_firstBy_iff hm, hp.mem_iff, hrank]

theorem firstBy_length (f : α → β) (k : Nat) (l : List α) :
    (firstBy f k l).length = min k l.length := by
  rw [firstBy, List.length_take, (sortOn_perm f l).length_eq]

end Select
