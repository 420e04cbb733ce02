import Binda.Lib.Compact

/-!
# Compact JSON is read in one way

`compact_injective` says that no two documents are written as the same text, once numbers are
natural ones (`Plain`; of any other number a document keeps the text, and that may look like
anything).

The proof walks over both documents at once.  The first letter gives the kind of a document
away (`kindOf`), so both are of one kind; strings end where they close, and numbers where a
letter comes that is no digit (`Stops`), which is so after every part of a document.
-/

namespace Json

/-! ### Plain documents -/

mutual

/-- Every number is a natural number. -/
def Plain : Json → Prop
  | number _ => False
  | array elements => PlainElements elements
  | object members => PlainMembers members
  | _ => True

def PlainElements : List Json → Prop
  | [] => True
  | j :: elements => j.Plain ∧ PlainElements elements

def PlainMembers : List (String × Json) → Prop
  | [] => True
  | (_, j) :: members => j.Plain ∧ PlainMembers members

end

theorem plainElements_iff {elements : List Json} :
    PlainElements elements ↔ ∀ j ∈ elements, j.Plain := by
  induction elements with
  | nil => simp [PlainElements]
  | cons j elements ih => rw [PlainElements, ih, List.forall_mem_cons]

/-! ### The first letter -/

/-- What kind of document starts with the letter. -/
def kindOf (c : Char) : Nat :=
  if c = 'n' then 1
  else if c = 't' then 2
  else if c = 'f' then 3
  else if c.isDigit then 4
  else if c = '\"' then 5
  else if c = '[' then 6
  else if c = '\x7b' then 7
  else 0

/-- The kind of a document. -/
def kind : Json → Nat
  | null => 1
  | bool true => 2
  | bool false => 3
  | nat _ => 4
  | number _ => 0
  | string _ => 5
  | array _ => 6
  | object _ => 7

theorem kindOf_digit {c : Char} (h : c.isDigit = true) : kindOf c = 4 := by
  have hn : c ≠ 'n' := by rintro rfl; cases h
  have ht : c ≠ 't' := by rintro rfl; cases h
  have hf : c ≠ 'f' := by rintro rfl; cases h
  rw [kindOf, if_neg hn, if_neg ht, if_neg hf, if_pos h]

/-- **The first letter gives the kind away.** -/
theorem kindOf_head {j : Json} (h : j.Plain) :
    ∃ c t, j.compact = c :: t ∧ kindOf c = j.kind := by
  cases j with
  | null => exact ⟨'n', _, rfl, rfl⟩
  | bool b =>
    cases b with
    | true => exact ⟨'t', _, rfl, rfl⟩
    | false => exact ⟨'f', _, rfl, rfl⟩
  | nat n =>
    obtain ⟨c, t, hdigits⟩ := List.exists_cons_of_ne_nil (Nat.toDigits_ne_nil (b := 10) (n := n))
    refine ⟨c, t, hdigits, kindOf_digit ?_⟩
    refine Nat.isDigit_of_mem_toDigits (b := 10) (n := n) (by decide) (by decide) ?_
    rw [hdigits]
    exact List.mem_cons_self
  | number literal => exact h.elim
  | string s => exact ⟨'\"', _, rfl, rfl⟩
  | array elements => exact ⟨'[', _, rfl, rfl⟩
  | object members => exact ⟨'\x7b', _, rfl, rfl⟩

/-- Documents that start a text in the same way are of one kind. -/
theorem kind_eq {j j' : Json} (h : j.Plain) (h' : j'.Plain) {rest rest' : List Char}
    (heq : j.compact ++ rest = j'.compact ++ rest') : j.kind = j'.kind := by
  obtain ⟨c, t, hc, hkind⟩ := kindOf_head h
  obtain ⟨c', t', hc', hkind'⟩ := kindOf_head h'
  rw [hc, hc'] at heq
  rw [← hkind, ← hkind', (List.cons.inj heq).1]

/-- A document starts with no closing bracket. -/
theorem compact_ne_cons {j : Json} (h : j.Plain) {c : Char} (hc : kindOf c = 0)
    {rest rest' : List Char} : j.compact ++ rest ≠ c :: rest' := by
  intro heq
  obtain ⟨c', t, hc', hkind⟩ := kindOf_head h
  rw [hc'] at heq
  rw [(List.cons.inj heq).1, hc] at hkind
  cases j with
  | number literal => exact h
  | bool b => cases b <;> cases hkind
  | _ => cases hkind

/-! ### What follows -/

/-- The text goes on with a letter that is no digit. -/
def Stops (rest : List Char) : Prop := ∃ c t, rest = c :: t ∧ c.isDigit = false

theorem stops_cons {c : Char} (h : c.isDigit = false) (t : List Char) : Stops (c :: t) :=
  ⟨c, t, rfl, h⟩

theorem digits_cancel {m n : Nat} {rest rest' : List Char} (hs : Stops rest) (hs' : Stops rest')
    (h : Nat.toDigits 10 m ++ rest = Nat.toDigits 10 n ++ rest') : m = n ∧ rest = rest' := by
  have hspan : ∀ (k : Nat) {r : List Char}, Stops r →
      (Nat.toDigits 10 k ++ r).takeWhile Char.isDigit = Nat.toDigits 10 k := by
    rintro k r ⟨c, t, rfl, hc⟩
    have hall : ∀ x ∈ Nat.toDigits 10 k, x.isDigit = true := fun x hx =>
      Nat.isDigit_of_mem_toDigits (by decide) (by decide) hx
    rw [List.takeWhile_append_of_pos hall, List.takeWhile_cons, hc]
    simp
  have hdigits : Nat.toDigits 10 m = Nat.toDigits 10 n := by
    rw [← hspan m hs, h, hspan n hs']
  refine ⟨toDigits_ten_injective hdigits, ?_⟩
  rw [hdigits] at h
  exact List.append_cancel_left h

/-- What comes after an item of a list: the closing bracket, or a comma and the others. -/
def next {α : Type} (write : List α → List Char) (close : Char) : List α → List Char
  | [] => [close]
  | a :: l => ',' :: write (a :: l)

theorem compactElements_cons (j : Json) (l : List Json) :
    compactElements (j :: l) = j.compact ++ next compactElements ']' l := by
  cases l <;> rfl

theorem compactMembers_cons (name : String) (j : Json) (l : List (String × Json)) :
    compactMembers ((name, j) :: l) =
      jsonString name ++ ':' :: (j.compact ++ next compactMembers '\x7d' l) := by
  cases l with
  | nil =>
    rw [compactMembers, List.append_assoc]
    rfl
  | cons m l =>
    rw [compactMembers, List.append_assoc]
    rfl

section Next

variable {α : Type} {close : Char} {write : List α → List Char} {l l' : List α}
  {rest rest' : List Char}

theorem stops_next (hclose : close.isDigit = false) (write : List α → List Char) (l : List α)
    (rest : List Char) : Stops (next write close l ++ rest) := by
  cases l with
  | nil => exact stops_cons hclose _
  | cons a l => exact stops_cons rfl _

/-- The letter says whether the list goes on. -/
theorem next_cancel (hclose : close ≠ ',')
    (h : next write close l ++ rest = next write close l' ++ rest') :
    l.isEmpty = l'.isEmpty ∧ (l.isEmpty = false → write l ++ rest = write l' ++ rest') := by
  cases l with
  | nil =>
    cases l' with
    | nil => exact ⟨rfl, fun hl => (by cases hl)⟩
    | cons a' l' => exact absurd (List.cons.inj h).1 hclose
  | cons a l =>
    cases l' with
    | nil => exact absurd (List.cons.inj h).1.symm hclose
    | cons a' l' => exact ⟨rfl, fun _ => (List.cons.inj h).2⟩

end Next

/-! ### Both documents at once -/

mutual

/-- **A document is split off the front of a text in one way.** -/
theorem compact_cancel : ∀ {j j' : Json}, j.Plain → j'.Plain → ∀ {rest rest' : List Char},
    Stops rest → Stops rest' → j.compact ++ rest = j'.compact ++ rest' → j = j' ∧ rest = rest'
  | null, j', h, h', rest, rest', _, _, heq => by
    have hkind := kind_eq h h' heq
    cases j' with
    | null => exact ⟨rfl, List.append_cancel_left heq⟩
    | bool b => cases b <;> cases hkind
    | _ => cases hkind
  | bool b, j', h, h', rest, rest', _, _, heq => by
    have hkind := kind_eq h h' heq
    cases j' with
    | bool b' =>
      cases b <;> cases b'
      · exact ⟨rfl, List.append_cancel_left heq⟩
      · cases hkind
      · cases hkind
      · exact ⟨rfl, List.append_cancel_left heq⟩
    | _ => cases b <;> cases hkind
  | nat n, j', h, h', rest, rest', hs, hs', heq => by
    have hkind := kind_eq h h' heq
    cases j' with
    | nat n' =>
      obtain ⟨rfl, hrest⟩ := digits_cancel hs hs' heq
      exact ⟨rfl, hrest⟩
    | bool b => cases b <;> cases hkind
    | _ => cases hkind
  | number _, _, h, _, _, _, _, _, _ => h.elim
  | string s, j', h, h', rest, rest', _, _, heq => by
    have hkind := kind_eq h h' heq
    cases j' with
    | string s' =>
      obtain ⟨rfl, hrest⟩ := jsonString_prefixCode s s' rest rest' heq
      exact ⟨rfl, hrest⟩
    | bool b => cases b <;> cases hkind
    | _ => cases hkind
  | array elements, j', h, h', rest, rest', _, _, heq => by
    have hkind := kind_eq h h' heq
    cases j' with
    | array elements' =>
      obtain ⟨rfl, hrest⟩ := compactElements_cancel h h' (List.cons.inj heq).2
      exact ⟨rfl, hrest⟩
    | bool b => cases b <;> cases hkind
    | _ => cases hkind
  | object members, j', h, h', rest, rest', _, _, heq => by
    have hkind := kind_eq h h' heq
    cases j' with
    | object members' =>
      obtain ⟨rfl, hrest⟩ := compactMembers_cancel h h' (List.cons.inj heq).2
      exact ⟨rfl, hrest⟩
    | bool b => cases b <;> cases hkind
    | _ => cases hkind

/-- The same for what is between two brackets. -/
theorem compactElements_cancel : ∀ {l l' : List Json}, PlainElements l → PlainElements l' →
    ∀ {rest rest' : List Char}, compactElements l ++ rest = compactElements l' ++ rest' →
      l = l' ∧ rest = rest'
  | [], [], _, _, _, _, heq => ⟨rfl, List.append_cancel_left heq⟩
  | [], j' :: l', _, h', rest, rest', heq => by
    rw [compactElements_cons, List.append_assoc] at heq
    exact absurd heq.symm (compact_ne_cons h'.1 rfl)
  | j :: l, [], h, _, rest, rest', heq => by
    rw [compactElements_cons, List.append_assoc] at heq
    exact absurd heq (compact_ne_cons h.1 rfl)
  | j :: l, j' :: l', h, h', rest, rest', heq => by
    rw [compactElements_cons, compactElements_cons, List.append_assoc, List.append_assoc] at heq
    obtain ⟨rfl, hrest⟩ := compact_cancel h.1 h'.1 (stops_next rfl _ _ _)
      (stops_next rfl _ _ _) heq
    obtain ⟨hempty, hnext⟩ := next_cancel (by decide) hrest
    cases hl : l.isEmpty with
    | true =>
      obtain rfl := List.isEmpty_iff.mp hl
      obtain rfl := List.isEmpty_iff.mp (hempty ▸ hl)
      exact ⟨rfl, List.append_cancel_left hrest⟩
    | false =>
      obtain ⟨rfl, hend⟩ := compactElements_cancel h.2 h'.2 (hnext hl)
      exact ⟨rfl, hend⟩

/-- The same for what is between two braces. -/
theorem compactMembers_cancel : ∀ {l l' : List (String × Json)}, PlainMembers l →
    PlainMembers l' → ∀ {rest rest' : List Char},
      compactMembers l ++ rest = compactMembers l' ++ rest' → l = l' ∧ rest = rest'
  | [], [], _, _, _, _, heq => ⟨rfl, List.append_cancel_left heq⟩
  | [], (name', j') :: l', _, _, rest, rest', heq => by
    rw [compactMembers_cons, List.append_assoc] at heq
    exact absurd (List.cons.inj heq).1 (by decide)
  | (name, j) :: l, [], _, _, rest, rest', heq => by
    rw [compactMembers_cons, List.append_assoc] at heq
    exact absurd (List.cons.inj heq).1 (by decide)
  | (name, j) :: l, (name', j') :: l', h, h', rest, rest', heq => by
    rw [compactMembers_cons, compactMembers_cons, List.append_assoc, List.append_assoc] at heq
    obtain ⟨rfl, hvalue⟩ := jsonString_prefixCode name name' _ _ heq
    rw [List.cons_append, List.cons_append, List.append_assoc, List.append_assoc] at hvalue
    have hvalue := (List.cons.inj hvalue).2
    obtain ⟨rfl, hrest⟩ := compact_cancel h.1 h'.1 (stops_next rfl _ _ _)
      (stops_next rfl _ _ _) hvalue
    obtain ⟨hempty, hnext⟩ := next_cancel (by decide) hrest
    cases hl : l.isEmpty with
    | true =>
      obtain rfl := List.isEmpty_iff.mp hl
      obtain rfl := List.isEmpty_iff.mp (hempty ▸ hl)
      exact ⟨rfl, List.append_cancel_left hrest⟩
    | false =>
      obtain ⟨rfl, hend⟩ := compactMembers_cancel h.2 h'.2 (hnext hl)
      exact ⟨rfl, hend⟩

end

/-- **No two documents are written as one text.** -/
theorem compact_injective {j j' : Json} (h : j.Plain) (h' : j'.Plain)
    (heq : j.compact = j'.compact) : j = j' := by
  have hstop : Stops [','] := stops_cons rfl []
  exact (compact_cancel h h' hstop hstop (by rw [heq])).1

end Json
