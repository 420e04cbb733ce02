import Mathlib.Data.List.Nodup
import Mathlib.Data.List.Perm.Basic

/-!
# A title passed on by duels

Challengers come one after another; whoever holds the title meets each of them
once, `duel` says who keeps it.  `champion duel l` is the holder after the
challengers `l`.

When `duel` is a fair pairwise rule (it picks one of the two and does not look
at who held the title), the order of the challengers still matters in general:
the rule need not be transitive.  `champion_order_free_iff` says exactly when it
does not: the outcome is the same for every order if and only if somebody is
unbeaten, that is, wins against each of the others.
-/

namespace Tournament

variable {α : Type} (duel : α → α → α)

/-- One more challenger. -/
def meet (holder : Option α) (x : α) : Option α :=
  match holder with
  | none => some x
  | some a => some (duel a x)

/-- Who holds the title after the challengers `l`. -/
def champion (l : List α) : Option α := l.foldl (meet duel) none

/-- `duel` picks one of the two, and among the members of `l` it does not matter
which of them came first. -/
structure Fair (l : List α) : Prop where
  pick : ∀ a b, duel a b = a ∨ duel a b = b
  symm : ∀ a ∈ l, ∀ b ∈ l, duel a b = duel b a

/-- `w` wins against every member of `l`. -/
def Unbeaten (l : List α) (w : α) : Prop := ∀ x ∈ l, duel w x = w

variable {duel} {L : List α}

theorem Fair.self (h : Fair duel L) (a : α) : duel a a = a := by
  rcases h.pick a a with he | he <;> exact he

/-- Once an unbeaten member holds the title it keeps it. -/
theorem foldl_meet_unbeaten {w : α} : ∀ l : List α, Unbeaten duel l w →
    l.foldl (meet duel) (some w) = some w := by
  intro l
  induction l with
  | nil => intro _; rfl
  | cons x l ih =>
    intro h
    rw [List.foldl_cons, meet, h x List.mem_cons_self]
    exact ih fun y hy => h y (List.mem_cons_of_mem x hy)

/-- **An unbeaten member takes the title in every order.**  The challengers `l`
and the holder are members of `L`. -/
theorem champion_of_unbeaten (hf : Fair duel L) {w : α} (hu : Unbeaten duel L w) :
    ∀ (l : List α) (o : Option α), l ⊆ L → (∀ a, o = some a → a ∈ L) → w ∈ l →
      l.foldl (meet duel) o = some w := by
  intro l
  induction l with
  | nil => intro o _ _ hw; exact absurd hw (by simp)
  | cons x l ih =>
    intro o hl ho hw
    have hx : x ∈ L := hl List.mem_cons_self
    have hlL : l ⊆ L := fun y hy => hl (List.mem_cons_of_mem x hy)
    rw [List.foldl_cons]
    rcases List.mem_cons.mp hw with rfl | hwl
    · have hm : meet duel o w = some w := by
        cases o with
        | none => rfl
        | some a => rw [meet, hf.symm a (ho a rfl) w hx, hu a (ho a rfl)]
      rw [hm]
      exact foldl_meet_unbeaten l fun y hy => hu y (hlL hy)
    · refine ih _ hlL (fun a ha => ?_) hwl
      cases o with
      | none =>
        rw [meet] at ha
        exact Option.some.inj ha ▸ hx
      | some b =>
        rw [meet] at ha
        rcases hf.pick b x with hp | hp <;> rw [hp] at ha <;> rw [← Option.some.inj ha]
        · exact ho b rfl
        · exact hx

/-- The last challenger meets whoever holds the title then. -/
theorem champion_concat (l : List α) (x : α) :
    champion duel (l ++ [x]) = meet duel (champion duel l) x := by
  rw [champion, champion, List.foldl_append, List.foldl_cons, List.foldl_nil]

/-- The title is held by somebody who came. -/
theorem foldl_meet_mem (hpick : ∀ a b, duel a b = a ∨ duel a b = b) :
    ∀ (l : List α) (o : Option α) {w : α}, l.foldl (meet duel) o = some w → w ∈ l ∨ o = some w := by
  intro l
  induction l with
  | nil => intro o w h; exact Or.inr h
  | cons x l ih =>
    intro o w h
    rw [List.foldl_cons] at h
    rcases ih _ h with hw | hw
    · exact Or.inl (List.mem_cons_of_mem x hw)
    · cases o with
      | none =>
        rw [meet] at hw
        exact Or.inl (by simp [Option.some.inj hw])
      | some a =>
        rw [meet] at hw
        rcases hpick a x with hp | hp <;> rw [hp] at hw
        · exact Or.inr hw
        · exact Or.inl (by simp [Option.some.inj hw])

theorem champion_mem (hpick : ∀ a b, duel a b = a ∨ duel a b = b) {l : List α} {w : α}
    (h : champion duel l = some w) : w ∈ l :=
  (foldl_meet_mem hpick l none h).resolve_right (by simp)

variable (duel) in
theorem foldl_meet_isSome : ∀ (l : List α) (a : α), ∃ w, l.foldl (meet duel) (some a) = some w := by
  intro l
  induction l with
  | nil => intro a; exact ⟨a, rfl⟩
  | cons x l ih => intro a; exact ih (duel a x)

/-- **The order of the challengers does not matter if and only if somebody is
unbeaten.** -/
theorem champion_order_free_iff [DecidableEq α] {l : List α} (hf : Fair duel l) (hl : l.Nodup) :
    (∀ l₁ l₂ : List α, l₁.Perm l → l₂.Perm l → champion duel l₁ = champion duel l₂) ↔
      l = [] ∨ ∃ w ∈ l, Unbeaten duel l w := by
  constructor
  · intro h
    cases hc : champion duel l with
    | none =>
      left
      cases l with
      | nil => rfl
      | cons a l =>
        obtain ⟨w, hw⟩ := foldl_meet_isSome duel l a
        rw [champion, List.foldl_cons, meet, hw] at hc
        cases hc
    | some w =>
      right
      have hwl : w ∈ l := champion_mem hf.pick hc
      refine ⟨w, hwl, fun x hx => ?_⟩
      by_contra hlose
      have hxw : duel w x = x := (hf.pick w x).resolve_left hlose
      have hne : x ≠ w := by
        rintro rfl
        exact hlose (hf.self x)
      -- let `w` come first and `x` second: `w` loses the title and never comes back
      have hx' : x ∈ l.erase w := (List.mem_erase_of_ne hne).mpr hx
      have hperm : (w :: x :: (l.erase w).erase x).Perm l :=
        ((List.perm_cons_erase hx').symm.cons w).trans (List.perm_cons_erase hwl).symm
      have hsame := h _ l hperm (List.Perm.refl l)
      rw [hc, champion, List.foldl_cons, List.foldl_cons, meet, meet, hxw] at hsame
      rcases foldl_meet_mem hf.pick _ _ hsame with hw | hw
      · have := List.mem_of_mem_erase hw
        exact List.Nodup.not_mem_erase hl this
      · exact hne (Option.some.inj hw)
  · rintro (rfl | ⟨w, hwl, hu⟩) l₁ l₂ h₁ h₂
    · rw [h₁.eq_nil, h₂.eq_nil]
    · have key : ∀ l', l'.Perm l → champion duel l' = some w := fun l' hp =>
        champion_of_unbeaten hf hu l' none hp.subset (by simp) (hp.mem_iff.mpr hwl)
      rw [key l₁ h₁, key l₂ h₂]

end Tournament
