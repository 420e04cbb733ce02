import Mathlib.Data.List.Forall2
import Mathlib.Data.List.Nodup
import Mathlib.Data.List.Perm.Basic
import Binda.Lib.Json

/-!
# Reading back what was written

`ReadsBack write read` says that reading gives back what was written.  A list of such things
reads back, and a structure reads back field by field: from an object with exactly the
named members `Json.fields` keeps them all (`fields_object`), and `required_cons_self`,
`required_cons_of_ne` walk to the one that is asked for.

The order of the members of an object has no meaning.  `Reordered j j'` says that two
documents differ in nothing else, at any depth, and `Respects read` that a reader does not
see it.  Every reader built from the ones here respects it: `respects_readList` for lists,
`bind_fields_congr` and `required_congr` for structures, `bind_variant_congr` for
enumerations.
-/

namespace Json

variable {α β : Type}

/-! ### What was written is read -/

/-- Reading gives back what was written. -/
def ReadsBack (write : α → Json) (read : Json → Option α) : Prop := ∀ a, read (write a) = some a

theorem readNat_nat {bound n : Nat} (h : n < bound) : (nat n).readNat bound = some n := by
  rw [readNat, if_pos h]

/-- **A list reads back if its elements do.** -/
theorem ReadsBack.list {write : α → Json} {read : Json → Option α} (h : ReadsBack write read) :
    ReadsBack (fun l => array (l.map write)) (readList read) := by
  intro l
  show (l.map write).mapM read = some l
  induction l with
  | nil => rfl
  | cons a l ih =>
    rw [List.map_cons, List.mapM_cons, h a, ih]
    rfl

/-- Something that may be missing reads back if it is not written as `null`. -/
theorem readOption_of_ne_null {read : Json → Option α} {j : Json} {a : α} (hne : j ≠ null)
    (h : read j = some a) : j.readOption read = some (some a) := by
  cases j with
  | null => exact absurd rfl hne
  | _ =>
    rw [readOption, h]
    · rfl
    · exact hne

/-- **All members are kept if they are the named ones.** -/
theorem fields_object {members : List (String × Json)} {names : List String}
    (h : members.map Prod.fst = names) (hnodup : names.Nodup) :
    (object members).fields names = some members := by
  have hall : members.filter (fun m => names.contains m.1) = members := by
    rw [List.filter_eq_self]
    intro m hm
    rw [List.contains_iff_mem, ← h]
    exact List.mem_map_of_mem hm
  rw [fields, hall, if_pos (h ▸ hnodup)]

section Fields

variable {name name' : String} {j : Json} {fs : List (String × Json)} {read : Json → Option α}

@[simp] theorem required_cons_self : required ((name, j) :: fs) name read = read j := by
  rw [required, List.lookup_cons_self, Option.bind_some]

@[simp] theorem required_cons_of_ne (h : name' ≠ name) :
    required ((name', j) :: fs) name read = required fs name read := by
  rw [required, List.lookup_cons, beq_eq_false_iff_ne.mpr h.symm, required]

@[simp] theorem optional_cons_self : optional ((name, j) :: fs) name read = j.readOption read := by
  rw [optional, List.lookup_cons_self]

@[simp] theorem optional_cons_of_ne (h : name' ≠ name) :
    optional ((name', j) :: fs) name read = optional fs name read := by
  rw [optional, List.lookup_cons, beq_eq_false_iff_ne.mpr h.symm, optional]

/-- One field of a structure is read, and the rest goes on. -/
theorem bind_required {a : α} {f : α → Option β} (hfound : fs.lookup name = some j)
    (hread : read j = some a) : (required fs name read).bind f = f a := by
  rw [required, hfound, Option.bind_some, hread, Option.bind_some]

theorem bind_optional {a : Option α} {f : Option α → Option β} (hfound : fs.lookup name = some j)
    (hread : j.readOption read = some a) : (optional fs name read).bind f = f a := by
  rw [optional, hfound]
  exact congrArg (Option.bind · f) hread

end Fields

/-! ### The order of members -/

/-- The two documents differ in the order of members at most. -/
inductive Reordered : Json → Json → Prop
  | refl (j : Json) : Reordered j j
  | array {l l' : List Json} (h : List.Forall₂ Reordered l l') : Reordered (array l) (array l')
  | object {ms ms' : List (String × Json)} {values : List Json}
      (hperm : ms.Perm ms') (h : List.Forall₂ Reordered (ms'.map Prod.snd) values) :
      Reordered (object ms) (object ((ms'.map Prod.fst).zip values))

/-- The reader does not see the order of members. -/
def Respects (read : Json → Option α) : Prop := ∀ j j', Reordered j j' → read j = read j'

/-- The same fields, up to the order of members inside of them. -/
def FieldsAlike (fs fs' : List (String × Json)) : Prop :=
  ∀ name, Option.Rel Reordered (fs.lookup name) (fs'.lookup name)

theorem bind_rel {γ δ : Type} {r : γ → δ → Prop} {o : Option γ} {o' : Option δ}
    (h : Option.Rel r o o') {f : γ → Option α} {f' : δ → Option α}
    (hf : ∀ c d, r c d → f c = f' d) : o.bind f = o'.bind f' := by
  cases h with
  | none => rfl
  | some hcd => exact hf _ _ hcd

theorem respects_readNat (bound : Nat) : Respects (readNat bound) := by
  intro j j' h
  cases h <;> rfl

theorem respects_readString : Respects readString := by
  intro j j' h
  cases h <;> rfl

theorem respects_readNull : Respects readNull := by
  intro j j' h
  cases h <;> rfl

theorem Respects.map {read : Json → Option α} (h : Respects read) (f : α → β) :
    Respects fun j => (read j).map f := by
  intro j j' hj
  exact congrArg _ (h j j' hj)

theorem Respects.bind {read : Json → Option α} (h : Respects read) (f : α → Option β) :
    Respects fun j => (read j).bind f := by
  intro j j' hj
  exact congrArg (Option.bind · f) (h j j' hj)

theorem Respects.readOption {read : Json → Option α} (h : Respects read) :
    Respects fun j => j.readOption read := by
  intro j j' hj
  have hread := h j j' hj
  cases hj with
  | refl => rfl
  | array _ => exact congrArg (Option.map some) hread
  | object _ _ => exact congrArg (Option.map some) hread

/-- **A list is read in its own order**, whatever the order inside of its elements. -/
theorem respects_readList {read : Json → Option α} (h : Respects read) :
    Respects (readList read) := by
  intro j j' hj
  cases hj with
  | refl => rfl
  | array hl =>
    show List.mapM read _ = List.mapM read _
    induction hl with
    | nil => rfl
    | @cons a b l l' hab _ ih => rw [List.mapM_cons, List.mapM_cons, h a b hab, ih]
  | object _ _ => rfl

/-! ### Fields -/

/-- Of fields without repetitions a lookup finds what is there. -/
theorem lookup_eq_some_iff_mem {fs : List (String × Json)} (h : (fs.map Prod.fst).Nodup)
    {name : String} {j : Json} : fs.lookup name = some j ↔ (name, j) ∈ fs := by
  induction fs with
  | nil => simp
  | cons m fs ih =>
    obtain ⟨name', j'⟩ := m
    rw [List.map_cons, List.nodup_cons] at h
    by_cases he : name' = name
    · subst he
      rw [List.lookup_cons_self, List.mem_cons]
      constructor
      · intro hj
        rw [Option.some.inj hj]
        exact Or.inl rfl
      · rintro (hj | hmem)
        · rw [(Prod.mk.inj hj).2]
        · exact absurd (List.mem_map_of_mem (f := Prod.fst) hmem) h.1
    · rw [List.lookup_cons, beq_eq_false_iff_ne.mpr (Ne.symm he), ih h.2, List.mem_cons]
      constructor
      · exact Or.inr
      · rintro (hj | hmem)
        · exact absurd (Prod.mk.inj hj).1.symm he
        · exact hmem

/-- The order of fields is not seen by a lookup. -/
theorem lookup_perm {fs fs' : List (String × Json)} (hperm : fs.Perm fs')
    (h : (fs.map Prod.fst).Nodup) (name : String) : fs.lookup name = fs'.lookup name := by
  have h' : (fs'.map Prod.fst).Nodup := (hperm.map Prod.fst).nodup_iff.mp h
  refine Option.ext fun j => ?_
  rw [lookup_eq_some_iff_mem h, lookup_eq_some_iff_mem h', hperm.mem_iff]

/-- Names side by side with values that are alike. -/
theorem fieldsAlike_zip (names : List String) {values values' : List Json}
    (h : List.Forall₂ Reordered values values') :
    FieldsAlike (names.zip values) (names.zip values') := by
  intro name
  induction h generalizing names with
  | nil => rw [List.zip_nil_right]; exact Option.Rel.none
  | @cons v v' l l' hv _ ih =>
    cases names with
    | nil => exact Option.Rel.none
    | cons first names =>
      rw [List.zip_cons_cons, List.zip_cons_cons, List.lookup_cons, List.lookup_cons]
      split
      · exact Option.Rel.some hv
      · exact ih names

theorem zip_map_fst_snd (fs : List (String × Json)) :
    (fs.map Prod.fst).zip (fs.map Prod.snd) = fs := by
  rw [List.zip_map', List.map_id'']
  intro m
  rfl

/-- A condition on the names keeps names and values side by side. -/
theorem filter_zip (p : String → Bool) {ms : List (String × Json)} {values : List Json}
    (h : List.Forall₂ Reordered (ms.map Prod.snd) values) :
    ∃ values', List.Forall₂ Reordered ((ms.filter fun m => p m.1).map Prod.snd) values' ∧
      ((ms.map Prod.fst).zip values).filter (fun m => p m.1) =
        ((ms.filter fun m => p m.1).map Prod.fst).zip values' := by
  induction ms generalizing values with
  | nil => exact ⟨[], List.Forall₂.nil, rfl⟩
  | cons m ms ih =>
    rw [List.map_cons] at h
    cases h with
    | cons hv hrest =>
      rename_i v l
      obtain ⟨values', halike, hzip⟩ := ih hrest
      rw [List.map_cons, List.zip_cons_cons, List.filter_cons, List.filter_cons, hzip]
      by_cases hp : p m.1 = true
      · refine ⟨v :: values', ?_, ?_⟩
        · rw [if_pos hp, List.map_cons]
          exact List.Forall₂.cons hv halike
        · rw [if_pos hp, if_pos hp, List.map_cons, List.zip_cons_cons]
      · refine ⟨values', ?_, ?_⟩
        · rw [if_neg hp]
          exact halike
        · rw [if_neg hp, if_neg hp]

/-- **The fields of a structure are found in any order.** -/
theorem fields_rel {names : List String} {j j' : Json} (h : Reordered j j') :
    Option.Rel FieldsAlike (j.fields names) (j'.fields names) := by
  have hsame : ∀ o : Option (List (String × Json)), Option.Rel FieldsAlike o o := by
    intro o
    have hrefl : ∀ o : Option Json, Option.Rel Reordered o o := by
      rintro (_ | j)
      · exact Option.Rel.none
      · exact Option.Rel.some (Reordered.refl j)
    cases o with
    | none => exact Option.Rel.none
    | some fs => exact Option.Rel.some fun name => hrefl _
  cases h with
  | refl => exact hsame _
  | array hl =>
    rename_i l l'
    rw [fields, fields, hl.length_eq]
    by_cases hlen : l'.length = names.length
    · rw [if_pos hlen, if_pos hlen]
      exact Option.Rel.some (fieldsAlike_zip names hl)
    · rw [if_neg hlen, if_neg hlen]
      exact Option.Rel.none
  | object hperm hvalues =>
    rename_i ms ms' values
    obtain ⟨values', halike, hzip⟩ := filter_zip (fun name => names.contains name) hvalues
    have hknown : (ms.filter fun m => names.contains m.1).Perm
        (ms'.filter fun m => names.contains m.1) := hperm.filter _
    have hkeys : ((((ms'.filter fun m => names.contains m.1).map Prod.fst).zip values').map
        Prod.fst) = (ms'.filter fun m => names.contains m.1).map Prod.fst := by
      refine List.map_fst_zip ?_
      have hlen := halike.length_eq
      rw [List.length_map] at hlen ⊢
      exact Nat.le_of_eq hlen
    rw [fields, fields, hzip, hkeys]
    by_cases hnodup : ((ms.filter fun m => names.contains m.1).map Prod.fst).Nodup
    · rw [if_pos hnodup, if_pos ((hknown.map Prod.fst).nodup_iff.mp hnodup)]
      refine Option.Rel.some fun name => ?_
      have hname := fieldsAlike_zip
        ((ms'.filter fun m => names.contains m.1).map Prod.fst) halike name
      rwa [zip_map_fst_snd, ← lookup_perm hknown hnodup] at hname
    · rw [if_neg hnodup, if_neg fun h => hnodup ((hknown.map Prod.fst).nodup_iff.mpr h)]
      exact Option.Rel.none

theorem bind_fields_congr {names : List String} {j j' : Json} (h : Reordered j j')
    {f : List (String × Json) → Option α} (hf : ∀ fs fs', FieldsAlike fs fs' → f fs = f fs') :
    (j.fields names).bind f = (j'.fields names).bind f :=
  bind_rel (fields_rel h) hf

theorem required_congr {fs fs' : List (String × Json)} (h : FieldsAlike fs fs') {name : String}
    {read : Json → Option α} (hread : Respects read) :
    required fs name read = required fs' name read :=
  bind_rel (h name) hread

theorem optional_congr {fs fs' : List (String × Json)} (h : FieldsAlike fs fs') {name : String}
    {read : Json → Option α} (hread : Respects read) :
    optional fs name read = optional fs' name read := by
  have hname := h name
  rw [optional, optional]
  generalize fs.lookup name = o at hname
  generalize fs'.lookup name = o' at hname
  cases hname with
  | none => rfl
  | some hj => exact hread.readOption _ _ hj

/-! ### Variants -/

/-- The same variant, with contents that are alike. -/
def VariantsAlike (v v' : String × Option Json) : Prop :=
  v.1 = v'.1 ∧ Option.Rel Reordered v.2 v'.2

theorem variant_rel {j j' : Json} (h : Reordered j j') :
    Option.Rel VariantsAlike j.variant j'.variant := by
  have hsame : ∀ o : Option (String × Option Json), Option.Rel VariantsAlike o o := by
    rintro (_ | ⟨name, _ | content⟩)
    · exact Option.Rel.none
    · exact Option.Rel.some ⟨rfl, Option.Rel.none⟩
    · exact Option.Rel.some ⟨rfl, Option.Rel.some (Reordered.refl content)⟩
  cases h with
  | refl => exact hsame _
  | array _ => exact Option.Rel.none
  | object hperm hvalues =>
    rename_i ms ms' values
    have hlen := hvalues.length_eq
    rw [List.length_map] at hlen
    match ms, ms', values, hperm, hvalues, hlen with
    | [], [], [], _, _, _ => exact Option.Rel.none
    | [m], [m'], [v], hperm, hvalues, _ =>
      obtain rfl := List.singleton_inj.mp (List.singleton_perm_singleton.mp hperm ▸ rfl :
        [m] = [m'])
      obtain ⟨name, content⟩ := m
      cases hvalues with
      | cons hv _ => exact Option.Rel.some ⟨rfl, Option.Rel.some hv⟩
    | _ :: _ :: _, _ :: _ :: _, _ :: _ :: _, _, _, _ => exact Option.Rel.none
    | [], _ :: _, _, hperm, _, _ => exact absurd hperm.length_eq (by simp)
    | [_], [], _, hperm, _, _ => exact absurd hperm.length_eq (by simp)
    | [_], _ :: _ :: _, _, hperm, _, _ => exact absurd hperm.length_eq (by simp)
    | _ :: _ :: _, [], _, hperm, _, _ => exact absurd hperm.length_eq (by simp)
    | _ :: _ :: _, [_], _, hperm, _, _ => exact absurd hperm.length_eq (by simp)

theorem bind_variant_congr {j j' : Json} (h : Reordered j j')
    {f : String × Option Json → Option α} (hf : ∀ v v', VariantsAlike v v' → f v = f v') :
    j.variant.bind f = j'.variant.bind f :=
  bind_rel (variant_rel h) hf

end Json
