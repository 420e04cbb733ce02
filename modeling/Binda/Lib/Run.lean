import Mathlib.Logic.Relation

/-!
# Runs of a machine

`step s e` is the state after the event `e`, and `ok s e` says that `e` may
happen in the state `s`.  `Reaches step ok s t` says that some run of events
leads from `s` to `t`.

`Reaches.invariant` is the induction over a run, made once: what holds at the
start and is kept by every event that may happen holds at the end.  A run that
is given as a list of events is `Along`, and `Along.reaches` turns it into a
run; `Along.iff_prefixes` is the converse of the induction, for events that keep
a property just when they may happen.  `Since` looks back on such a list: an event
of one kind, and none but events of another kind after it.  `record` is what is
written down along such a list, beside a machine that does not read it.
-/

namespace Run

variable {σ ε : Type} {step : σ → ε → σ} {ok ok' : σ → ε → Prop}

/-- Some run of events leads from the one state to the other. -/
def Reaches (step : σ → ε → σ) (ok : σ → ε → Prop) : σ → σ → Prop :=
  Relation.ReflTransGen fun s t => ∃ e, ok s e ∧ step s e = t

namespace Reaches

theorem refl (s : σ) : Reaches step ok s s := Relation.ReflTransGen.refl

theorem tail {s t : σ} (h : Reaches step ok s t) {e : ε} (he : ok t e) :
    Reaches step ok s (step t e) :=
  Relation.ReflTransGen.tail h ⟨e, he, rfl⟩

theorem trans {s t u : σ} (h : Reaches step ok s t) (h' : Reaches step ok t u) :
    Reaches step ok s u :=
  Relation.ReflTransGen.trans h h'

/-- **What every event keeps, every run keeps.** -/
theorem invariant {I : σ → Prop} {s t : σ} (h : Reaches step ok s t) (hs : I s)
    (hstep : ∀ a e, ok a e → I a → I (step a e)) : I t := by
  induction h with
  | refl => exact hs
  | tail _ he ih =>
    obtain ⟨e, hok, rfl⟩ := he
    exact hstep _ e hok ih

/-- Where every event may happen, every list of events is a run. -/
theorem foldl (hok : ∀ s e, ok s e) : ∀ (es : List ε) (s : σ),
    Reaches step ok s (es.foldl step s) := by
  intro es
  induction es with
  | nil => intro s; exact refl s
  | cons e es ih => intro s; exact ((refl s).tail (hok s e)).trans (ih _)

/-- A run under the stronger condition is a run under the weaker one. -/
theorem mono {s t : σ} (h : Reaches step ok s t) (hok : ∀ a e, ok a e → ok' a e) :
    Reaches step ok' s t := by
  refine Relation.ReflTransGen.mono (fun a b hab => ?_) _ _ h
  obtain ⟨e, he, hb⟩ := hab
  exact ⟨e, hok a e he, hb⟩

end Reaches

/-- Every event of the list may happen when its turn comes. -/
def Along (step : σ → ε → σ) (ok : σ → ε → Prop) : σ → List ε → Prop
  | _, [] => True
  | s, e :: es => ok s e ∧ Along step ok (step s e) es

theorem Along.reaches : ∀ {es : List ε} {s : σ}, Along step ok s es →
    Reaches step ok s (es.foldl step s) := by
  intro es
  induction es with
  | nil => intro s _; exact Reaches.refl s
  | cons e es ih =>
    rintro s ⟨he, hes⟩
    exact ((Reaches.refl s).tail he).trans (ih hes)

theorem Along.concat_iff : ∀ {es : List ε} {s : σ} {e : ε},
    Along step ok s (es ++ [e]) ↔ Along step ok s es ∧ ok (es.foldl step s) e := by
  intro es
  induction es with
  | nil => intro s e; exact and_comm
  | cons e' es ih =>
    intro s e
    rw [List.cons_append, Along, Along, List.foldl_cons, ih, and_assoc]

theorem Along.concat {es : List ε} {s : σ} {e : ε} (h : Along step ok s es)
    (he : ok (es.foldl step s) e) : Along step ok s (es ++ [e]) :=
  Along.concat_iff.mpr ⟨h, he⟩

/-- **Where the events that may happen are the ones that keep it**, it holds all along a list
of events just when each of them may happen in its turn. -/
theorem Along.iff_prefixes {I : σ → Prop} (hstep : ∀ a e, I a → (I (step a e) ↔ ok a e)) :
    ∀ {es : List ε} {s : σ}, I s → (Along step ok s es ↔ ∀ l, l <+: es → I (l.foldl step s)) := by
  intro es
  induction es with
  | nil =>
    intro s hs
    refine iff_of_true trivial fun l hl => ?_
    rw [List.prefix_nil.mp hl]
    exact hs
  | cons e es ih =>
    intro s hs
    constructor
    · rintro ⟨he, hes⟩ l hl
      rcases List.prefix_cons_iff.mp hl with rfl | ⟨m, rfl, hm⟩
      · exact hs
      · exact (ih ((hstep s e hs).mpr he)).mp hes m hm
    · intro h
      have he : I (step s e) := h [e] ⟨es, rfl⟩
      refine ⟨(hstep s e hs).mp he, (ih he).mpr fun m hm => ?_⟩
      exact h (e :: m) ((List.prefix_cons_inj e).mpr hm)

/-- Some event of the list satisfies `p` when its turn comes, and every event after
it satisfies `q`. -/
def Since (step : σ → ε → σ) (p q : σ → ε → Prop) (s : σ) (es : List ε) : Prop :=
  ∃ l e m, es = l ++ e :: m ∧ p (l.foldl step s) e ∧ Along step q (step (l.foldl step s) e) m

namespace Since

variable {p q : σ → ε → Prop} {s : σ} {es : List ε} {e : ε}

theorem last (he : p (es.foldl step s) e) : Since step p q s (es ++ [e]) :=
  ⟨es, e, [], rfl, he, trivial⟩

theorem concat (h : Since step p q s es) (he : q (es.foldl step s) e) :
    Since step p q s (es ++ [e]) := by
  obtain ⟨l, e', m, rfl, hp, hq⟩ := h
  rw [List.foldl_append, List.foldl_cons] at he
  exact ⟨l, e', m ++ [e], by simp, hp, hq.concat he⟩

theorem not_nil : ¬ Since step p q s [] := by
  rintro ⟨l, e, m, h, _⟩
  cases l <;> cases h

/-- **What the last event has to do with it.** -/
theorem concat_iff : Since step p q s (es ++ [e]) ↔
    p (es.foldl step s) e ∨ Since step p q s es ∧ q (es.foldl step s) e := by
  constructor
  · rintro ⟨l, e', m, h, hp, hq⟩
    rcases List.eq_nil_or_concat m with rfl | ⟨m, e'', rfl⟩
    · obtain ⟨rfl, he⟩ := List.append_inj' h rfl
      obtain rfl := (List.cons.inj he).1
      exact Or.inl hp
    · rw [List.concat_eq_append, ← List.cons_append, ← List.append_assoc] at h
      obtain ⟨rfl, he⟩ := List.append_inj' h rfl
      obtain rfl := (List.cons.inj he).1
      rw [List.concat_eq_append, Along.concat_iff] at hq
      refine Or.inr ⟨⟨l, e', m, rfl, hp, hq.1⟩, ?_⟩
      rw [List.foldl_append, List.foldl_cons]
      exact hq.2
  · rintro (hp | ⟨h, hq⟩)
    · exact last hp
    · exact h.concat hq

end Since

/-- What is written down along the list, beside the machine. -/
def record {ρ : Type} (step : σ → ε → σ) (note : σ → ρ → ε → ρ) : σ → ρ → List ε → ρ
  | _, r, [] => r
  | s, r, e :: es => record step note (step s e) (note s r e) es

/-- **What every event keeps of the machine and the record, a run keeps.** -/
theorem record_invariant {ρ : Type} {note : σ → ρ → ε → ρ} {I : σ → ρ → Prop}
    (hstep : ∀ s r e, I s r → I (step s e) (note s r e)) : ∀ {es : List ε} {s : σ} {r : ρ},
    I s r → I (es.foldl step s) (record step note s r es) := by
  intro es
  induction es with
  | nil => intro s r h; exact h
  | cons e es ih => intro s r h; exact ih (hstep s r e h)

end Run
