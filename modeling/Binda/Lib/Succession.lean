import Binda.Lib.Tournament

/-!
# A seat that changes hands

Parties take turns at one seat.  A party first leaves the seat if it sits there
itself; then, if it has somebody to send, the one it sends meets whoever sits
there, and `duel` says who of the two has the seat.

`foldl_turn_eq_some` says how somebody can have come to the seat, and from it
follows when the order of the turns does not matter: exactly if nobody is sent, or
somebody who is sent prevails against all others and over whoever sat there, or
somebody whom nobody recalls sits there and withstands all (`foldl_turn_perm_iff`).
A second round of turns then changes nothing (`foldl_turn_again`).
-/

namespace Succession

open Tournament

variable {κ α : Type} (duel : α → α → α) (claim : κ → Option α) (owns : κ → α → Bool)

/-- One party has its turn: it recalls its own, and sends whom it has. -/
def turn (x : Option α) (q : κ) : Option α :=
  match claim q with
  | none => x.filter fun g => !owns q g
  | some w => meet duel (x.filter fun g => !owns q g) w

/-- The parties `keys` meet at a seat held by `x`. -/
structure Court (keys : List κ) (x : Option α) : Prop where
  nodup : keys.Nodup
  pick : ∀ a b, duel a b = a ∨ duel a b = b
  total : ∀ a b, duel a b = a → duel b a = a
  comes : ∀ q w, claim q = some w → q ∈ keys
  own : ∀ q w, claim q = some w → ∀ q', owns q' w = true ↔ q' = q
  sitting : ∀ g, x = some g → (∀ q, owns q g = false) ∨
    ∃ h ∈ keys, (∀ q, owns q g = true ↔ q = h) ∧ ∀ w, claim h = some w → duel g w = w

/-- It is clear who gets the seat. -/
inductive Decided (x : Option α) : Prop
  /-- Nobody is sent. -/
  | idle (h : ∀ q, claim q = none)
  /-- The one sent by `k` prevails. -/
  | taken (k : κ) (w : α) (hk : claim k = some w)
      (strict : ∀ q w', q ≠ k → claim q = some w' → duel w w' = w)
      (ahead : ∀ g, x = some g → duel g w = w)
  /-- Whoever sits there withstands all. -/
  | kept (g : α) (hx : x = some g) (free : ∀ q, owns q g = false)
      (ahead : ∀ q w, claim q = some w → duel g w = g)

variable {duel claim owns} {keys l l₁ l₂ : List κ} {x : Option α} {q k : κ} {w y : α}

/-- Whoever has the seat after a turn was sent, or had it before and was neither
recalled nor beaten. -/
theorem turn_eq_some (hpick : ∀ a b, duel a b = a ∨ duel a b = b)
    (h : turn duel claim owns x q = some y) :
    claim q = some y ∨
      x = some y ∧ owns q y = false ∧ ∀ w, claim q = some w → duel y w = y := by
  rw [turn] at h
  cases hw : claim q with
  | none =>
    rw [hw] at h
    obtain ⟨hx, ho⟩ := Option.filter_eq_some_iff.mp h
    exact Or.inr ⟨hx, by simpa using ho, fun _ hw => by cases hw⟩
  | some w =>
    rw [hw] at h
    dsimp only at h
    cases ha : x.filter fun g => !owns q g with
    | none =>
      rw [ha] at h
      exact Or.inl h
    | some a =>
      rw [ha, meet] at h
      obtain ⟨hx, ho⟩ := Option.filter_eq_some_iff.mp ha
      rcases hpick a w with hp | hp
      · rw [hp] at h
        obtain rfl := Option.some.inj h
        refine Or.inr ⟨hx, by simpa using ho, fun w' hw' => ?_⟩
        rw [← Option.some.inj hw', hp]
      · rw [hp] at h
        exact Or.inl h

/-- **How somebody can have come to the seat**: sent by one of the parties, or there
from the start and neither recalled nor beaten by any. -/
theorem foldl_turn_eq_some (hpick : ∀ a b, duel a b = a ∨ duel a b = b) :
    ∀ {l : List κ} {x : Option α}, l.foldl (turn duel claim owns) x = some y →
      (∃ q ∈ l, claim q = some y) ∨
        x = some y ∧ ∀ q ∈ l, owns q y = false ∧ ∀ w, claim q = some w → duel y w = y := by
  intro l
  induction l with
  | nil => intro x h; exact Or.inr ⟨h, fun q hq => by cases hq⟩
  | cons q l ih =>
    intro x h
    rw [List.foldl_cons] at h
    rcases ih h with ⟨q', hq', hc⟩ | ⟨hx, hl⟩
    · exact Or.inl ⟨q', List.mem_cons_of_mem q hq', hc⟩
    · rcases turn_eq_some hpick hx with hc | ⟨hx, hq⟩
      · exact Or.inl ⟨q, List.mem_cons_self, hc⟩
      · refine Or.inr ⟨hx, fun q' hq' => ?_⟩
        rcases List.mem_cons.mp hq' with rfl | hq'
        · exact hq
        · exact hl q' hq'

/-- Whoever is neither recalled nor beaten stays. -/
theorem foldl_turn_stays : ∀ {l : List κ},
    (∀ q ∈ l, owns q y = false ∧ ∀ w, claim q = some w → duel y w = y) →
      l.foldl (turn duel claim owns) (some y) = some y := by
  intro l
  induction l with
  | nil => intro _; rfl
  | cons q l ih =>
    intro h
    obtain ⟨ho, hw⟩ := h q List.mem_cons_self
    have hstay : turn duel claim owns (some y) q = some y := by
      rw [turn, Option.filter_some, if_pos (by simp [ho])]
      cases hc : claim q with
      | none => rfl
      | some w => exact congrArg some (hw w hc)
    rw [List.foldl_cons, hstay]
    exact ih fun q' hq' => h q' (List.mem_cons_of_mem q hq')

/-- Whoever is sent takes the seat from those it beats. -/
theorem turn_of_over (hk : claim k = some w)
    (hahead : ∀ g, x = some g → owns k g = false → duel g w = w) :
    turn duel claim owns x k = some w := by
  rw [turn, hk]
  dsimp only
  cases hg : x.filter fun g => !owns k g with
  | none => rfl
  | some g =>
    obtain ⟨hx, ho⟩ := Option.filter_eq_some_iff.mp hg
    exact congrArg some (hahead g hx (by simpa using ho))

/-- **The one who prevails has the seat in the end**, whatever the order. -/
theorem Court.foldl_of_taken {x₀ : Option α} (hc : Court duel claim owns keys x₀)
    (hk : claim k = some w)
    (hstrict : ∀ q w', q ≠ k → claim q = some w' → duel w w' = w)
    (hahead : ∀ g, x = some g → duel g w = w) (hl : l.Perm keys) :
    l.foldl (turn duel claim owns) x = some w := by
  obtain ⟨a, b, rfl⟩ := List.append_of_mem (hl.mem_iff.mpr (hc.comes k w hk))
  have hnd := hl.nodup_iff.mpr hc.nodup
  rw [List.nodup_append, List.nodup_cons] at hnd
  obtain ⟨_, ⟨hkb, _⟩, hab⟩ := hnd
  have hturn : turn duel claim owns (a.foldl (turn duel claim owns) x) k = some w := by
    refine turn_of_over hk fun g hg _ => ?_
    rcases foldl_turn_eq_some hc.pick hg with ⟨q, hq, hcq⟩ | ⟨hx, _⟩
    · have hne : q ≠ k := fun he => hab q hq k List.mem_cons_self he
      exact hc.total w g (hstrict q g hne hcq)
    · exact hahead g hx
  rw [List.foldl_append, List.foldl_cons, hturn]
  refine foldl_turn_stays fun q hq => ?_
  have hne : q ≠ k := fun he => hkb (he ▸ hq)
  have ho : owns q w ≠ true := fun ho => hne ((hc.own k w hk q).mp ho)
  exact ⟨by simpa using ho, fun w' hw' => hstrict q w' hne hw'⟩

/-- Where nobody is sent, whoever is not recalled stays. -/
theorem foldl_of_idle (h : ∀ q, claim q = none) :
    l.foldl (turn duel claim owns) x = x.filter fun g => l.all fun q => !owns q g := by
  induction l generalizing x with
  | nil => cases x <;> rfl
  | cons q l ih =>
    rw [List.foldl_cons, ih, turn, h q, Option.filter_filter]
    rfl

theorem Court.perm_of_decided (hc : Court duel claim owns keys x)
    (hd : Decided duel claim owns x) (h₁ : l₁.Perm keys) (h₂ : l₂.Perm keys) :
    l₁.foldl (turn duel claim owns) x = l₂.foldl (turn duel claim owns) x := by
  cases hd with
  | idle h =>
    rw [foldl_of_idle h, foldl_of_idle h]
    congr 1
    funext g
    exact (h₁.trans h₂.symm).all_eq
  | taken k w hk hstrict hahead =>
    rw [hc.foldl_of_taken hk hstrict hahead h₁, hc.foldl_of_taken hk hstrict hahead h₂]
  | kept g hx hfree hahead =>
    subst hx
    rw [foldl_turn_stays fun q _ => ⟨hfree q, hahead q⟩,
      foldl_turn_stays fun q _ => ⟨hfree q, hahead q⟩]

theorem Court.decided_of_perm [DecidableEq κ] (hc : Court duel claim owns keys x)
    (h : ∀ l₁ l₂ : List κ, l₁.Perm keys → l₂.Perm keys →
      l₁.foldl (turn duel claim owns) x = l₂.foldl (turn duel claim owns) x) :
    Decided duel claim owns x := by
  -- the party `q` may come last, or first
  have hlast : ∀ q ∈ keys, (keys.erase q ++ [q]).Perm keys := fun q hq =>
    (List.perm_append_singleton q _).trans (List.perm_cons_erase hq).symm
  have hfirst : ∀ q ∈ keys, (q :: keys.erase q).Perm keys := fun q hq =>
    (List.perm_cons_erase hq).symm
  by_cases hsent : ∀ q, claim q = none
  · exact .idle hsent
  rw [not_forall] at hsent
  obtain ⟨j, hj⟩ := hsent
  obtain ⟨v, hv⟩ := Option.ne_none_iff_exists'.mp hj
  -- after the turn of a party that sends somebody, somebody has the seat
  obtain ⟨y, hy⟩ : ∃ y, keys.foldl (turn duel claim owns) x = some y := by
    rw [h _ _ (List.Perm.refl _) (hlast j (hc.comes j v hv)), List.foldl_append, List.foldl_cons,
      turn, hv]
    dsimp only
    cases ((keys.erase j).foldl (turn duel claim owns) x).filter fun g => !owns j g with
    | none => exact ⟨v, rfl⟩
    | some a => exact ⟨duel a v, rfl⟩
  have hall : ∀ l : List κ, l.Perm keys → l.foldl (turn duel claim owns) x = some y :=
    fun l hl => (h _ _ hl (List.Perm.refl _)).trans hy
  rcases foldl_turn_eq_some hc.pick hy with ⟨k, hk, hck⟩ | ⟨hx, hkeep⟩
  · refine .taken k y hck (fun q w' hne hq => ?_) fun g hg => ?_
    · -- let `q` come last
      have hfold := hall _ (hlast q (hc.comes q w' hq))
      rw [List.foldl_append, List.foldl_cons, List.foldl_nil] at hfold
      rcases turn_eq_some hc.pick hfold with hq' | ⟨_, _, hbeat⟩
      · exact absurd ((hc.own q y hq' k).mp ((hc.own k y hck k).mpr rfl)) (Ne.symm hne)
      · exact hbeat w' hq
    · -- let `k` come first
      have hfold := hall _ (hfirst k hk)
      rw [List.foldl_cons] at hfold
      rcases foldl_turn_eq_some hc.pick hfold with ⟨q, hq, hcq⟩ | ⟨hturn, _⟩
      · have he : q = k := ((hc.own k y hck q).mp ((hc.own q y hcq q).mpr rfl))
        exact absurd (he ▸ hq) hc.nodup.not_mem_erase
      · by_cases ho : owns k g = true
        · rcases hc.sitting g hg with hfree | ⟨h', _, howner, hown⟩
          · rw [hfree k] at ho
            cases ho
          · obtain rfl := (howner k).mp ho
            exact hown y hck
        · rw [turn, hck, hg, Option.filter_some, if_pos (by simpa using ho)] at hturn
          exact Option.some.inj hturn
  · rcases hc.sitting y hx with hfree | ⟨h', hh', howner, _⟩
    · exact .kept y hx hfree fun q w hq => (hkeep q (hc.comes q w hq)).2 w hq
    · have := (hkeep h' hh').1
      rw [(howner h').mpr rfl] at this
      cases this

/-- **The order of the turns does not matter** if and only if it is clear who gets the
seat. -/
theorem Court.foldl_turn_perm_iff [DecidableEq κ] (hc : Court duel claim owns keys x) :
    (∀ l₁ l₂ : List κ, l₁.Perm keys → l₂.Perm keys →
      l₁.foldl (turn duel claim owns) x = l₂.foldl (turn duel claim owns) x) ↔
        Decided duel claim owns x :=
  ⟨hc.decided_of_perm, fun hd _ _ h₁ h₂ => hc.perm_of_decided hd h₁ h₂⟩

/-- **Then a second round changes nothing.** -/
theorem Court.foldl_turn_again (hc : Court duel claim owns keys x)
    (hd : Decided duel claim owns x) (h₁ : l₁.Perm keys) (h₂ : l₂.Perm keys) :
    l₂.foldl (turn duel claim owns) (l₁.foldl (turn duel claim owns) x) =
      l₁.foldl (turn duel claim owns) x := by
  cases hd with
  | idle h =>
    rw [foldl_of_idle h, foldl_of_idle h, Option.filter_filter]
    congr 1
    funext g
    rw [(h₂.trans h₁.symm).all_eq, Bool.and_self]
  | taken k w hk hstrict hahead =>
    rw [hc.foldl_of_taken hk hstrict hahead h₁]
    refine hc.foldl_of_taken hk hstrict (fun g hg => ?_) h₂
    obtain rfl := Option.some.inj hg
    exact (hc.pick w w).elim id id
  | kept g hx hfree hahead =>
    subst hx
    rw [foldl_turn_stays fun q _ => ⟨hfree q, hahead q⟩,
      foldl_turn_stays fun q _ => ⟨hfree q, hahead q⟩]

end Succession
