import Binda.Lib.Run

/-!
# A part of a machine

An event of the machine may reach a part of its state as at most one event of the part's own,
and the part may go on by that event alone.  Then the part is a machine of its own: what it is
after a run is what its own `script` makes of it (`IsPart.foldl`).
-/

namespace Run

variable {σ ε τ ε' : Type} {step : σ → ε → σ} {part : σ → τ} {own : τ → ε' → τ}
  {reaching : σ → ε → Option ε'} {s : σ} {es : List ε}

/-- What reaches the part in a run. -/
def script (step : σ → ε → σ) (reaching : σ → ε → Option ε') : σ → List ε → List ε'
  | _, [] => []
  | s, e :: es => (reaching s e).toList ++ script step reaching (step s e) es

/-- Where it depends on the event alone. -/
theorem script_eq_filterMap {reaching : ε → Option ε'} :
    script step (fun _ e => reaching e) s es = es.filterMap reaching := by
  induction es generalizing s with
  | nil => rfl
  | cons e es ih =>
    rw [script, ih, List.filterMap_cons]
    cases reaching e <;> rfl

/-- **What reaches the part, and when.** -/
theorem mem_script {x : ε'} : x ∈ script step reaching s es ↔
    ∃ l e m, es = l ++ e :: m ∧ reaching (l.foldl step s) e = some x := by
  induction es generalizing s with
  | nil =>
    refine ⟨fun h => (by cases h), ?_⟩
    rintro ⟨l, e, m, h, -⟩
    cases l <;> cases h
  | cons e es ih =>
    rw [script, List.mem_append, Option.mem_toList, ih]
    constructor
    · rintro (h | ⟨l, e', m, rfl, h⟩)
      · exact ⟨[], e, es, rfl, h⟩
      · exact ⟨e :: l, e', m, rfl, h⟩
    · rintro ⟨l, e', m, h, hx⟩
      cases l with
      | nil =>
        obtain ⟨rfl, rfl⟩ := List.cons.inj h
        exact Or.inl hx
      | cons e'' l =>
        obtain ⟨rfl, rfl⟩ := List.cons.inj h
        exact Or.inr ⟨l, e', m, rfl, hx⟩

/-- How two events of the run lie to each other, so does what they bring. -/
theorem script_pairwise {R : ε → ε → Prop} {Q : ε' → ε' → Prop}
    (h : ∀ s s' e e' x x', reaching s e = some x → reaching s' e' = some x' → R e e' → Q x x')
    (hes : es.Pairwise R) : (script step reaching s es).Pairwise Q := by
  induction es generalizing s with
  | nil => exact List.Pairwise.nil
  | cons e es ih =>
    obtain ⟨hfirst, hrest⟩ := List.pairwise_cons.mp hes
    rw [script, List.pairwise_append]
    refine ⟨?_, ih hrest, fun x hx x' hx' => ?_⟩
    · cases reaching s e with
      | none => exact List.Pairwise.nil
      | some x => exact List.pairwise_singleton _ _
    · obtain ⟨l, e', m, rfl, hreach⟩ := mem_script.mp hx'
      exact h _ _ e e' x x' (Option.mem_toList.mp hx) hreach
        (hfirst e' (List.mem_append_right _ List.mem_cons_self))

/-- What is so all along is so when the turn of an event comes. -/
theorem Along.turn {ok : σ → ε → Prop} {l m : List ε} {e : ε}
    (h : Along step ok s (l ++ e :: m)) : ok (l.foldl step s) e := by
  induction l generalizing s with
  | nil => exact h.1
  | cons e' l ih => exact ih h.2

/-- The part goes on by what reaches it. -/
def IsPart (step : σ → ε → σ) (part : σ → τ) (own : τ → ε' → τ)
    (reaching : σ → ε → Option ε') : Prop :=
  ∀ s e, part (step s e) = (reaching s e).toList.foldl own (part s)

namespace IsPart

/-- **The part of the machine is a machine of its own.** -/
theorem foldl (h : IsPart step part own reaching) (es : List ε) (s : σ) :
    part (es.foldl step s) = (script step reaching s es).foldl own (part s) := by
  induction es generalizing s with
  | nil => rfl
  | cons e es ih => rw [List.foldl_cons, ih, h, script, List.foldl_append]

/-- What every event of the part keeps, every run of the machine keeps. -/
theorem invariant (h : IsPart step part own reaching) {I : τ → Prop} (hs : I (part s))
    (hown : ∀ t e', I t → I (own t e')) : I (part (es.foldl step s)) := by
  rw [h.foldl]
  have hrun : Reaches own (fun _ _ => True) (part s)
      ((script step reaching s es).foldl own (part s)) :=
    Reaches.foldl (fun _ _ => trivial) _ _
  exact hrun.invariant hs fun t e' _ ht => hown t e' ht

/-- The part of a run of the machine is a run of the part. -/
theorem reaches (h : IsPart step part own reaching) (s : σ) (es : List ε) :
    Reaches own (fun _ _ => True) (part s) (part (es.foldl step s)) := by
  rw [h.foldl]
  exact Reaches.foldl (fun _ _ => trivial) _ _

end IsPart

end Run
