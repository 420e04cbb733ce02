import Binda.Core.Client
import Binda.Core.Fcrdns

/-!
# One host, one quota

A client's quota is kept under its host name, spelled canonically: `quotaKey`, in `store.rs`
and in `client.rs`.  Whether two spellings are of one host is decided by `normalize` in
`fcrdns.rs`, which does not trim.

`hostChars_rdropWhile` says that a trailing dot makes no difference to the key, and
`hostChars_hostChars` that the key is its own key, both as long as the key does not end in
whitespace.  It does when whitespace stands directly before the last dots of the name
(`spaceBeforeDots_iff`): trimming comes first and does not see it.
-/

namespace Binda

/-! ### Dropping at the end -/

section Drop

variable {α : Type} {p : α → Bool}

theorem rdropWhile_append (l m : List α) :
    (l ++ m).rdropWhile p =
      if m.rdropWhile p = [] then l.rdropWhile p else l ++ m.rdropWhile p := by
  simp only [List.rdropWhile, List.reverse_append, List.dropWhile_append, List.isEmpty_iff,
    List.reverse_eq_nil_iff]
  split_ifs
  · rfl
  · rw [List.reverse_append, List.reverse_reverse]

theorem rdropWhile_map {β : Type} (f : β → α) (l : List β) :
    (l.map f).rdropWhile p = (l.rdropWhile (p ∘ f)).map f := by
  rw [List.rdropWhile, List.rdropWhile, ← List.map_reverse, List.dropWhile_map, List.map_reverse]

/-- What is left does not start with what was dropped. -/
theorem not_of_dropWhile_eq_cons {l m : List α} {a : α} (h : l.dropWhile p = a :: m) :
    p a = false := by
  have := List.head_dropWhile_not p (l := l) (by rw [h]; exact List.cons_ne_nil a m)
  simpa [h] using this

end Drop

/-! ### Case -/

theorem toLower_cases (c : Char) :
    c.toLower = c ∨ 65 ≤ c.toNat ∧ c.toNat ≤ 90 ∧ c.toLower.toNat = c.toNat + 32 := by
  by_cases h : c.val ≥ 'A'.val ∧ c.val ≤ 'Z'.val
  · have hle : c.val.toNat ≤ 90 := UInt32.le_iff_toNat_le.mp h.2
    have hval : c.toLower.val = c.val + 32 := congrArg Char.val (dif_pos h)
    have h32 : (32 : UInt32).toNat = 32 := rfl
    refine Or.inr ⟨UInt32.le_iff_toNat_le.mp h.1, hle, ?_⟩
    show c.toLower.val.toNat = c.val.toNat + 32
    rw [hval, UInt32.toNat_add, h32]
    omega
  · exact Or.inl (dif_neg h)

theorem isWhitespace_of_range {c : Char} (h : 65 ≤ c.toNat) (h' : c.toNat ≤ 122) :
    isWhitespace c = false := by
  simp only [isWhitespace, Bool.or_eq_false_iff, Bool.and_eq_false_iff, decide_eq_false_iff_not,
    beq_eq_false_iff_ne]
  omega

theorem isWhitespace_toLower (c : Char) : isWhitespace c.toLower = isWhitespace c := by
  rcases toLower_cases c with h | ⟨h1, h2, h3⟩
  · rw [h]
  · rw [isWhitespace_of_range (by omega) (by omega), isWhitespace_of_range h1 (by omega)]

theorem toLower_beq_dot (c : Char) : (c.toLower == '.') = (c == '.') := by
  have hdot : '.'.toNat = 46 := rfl
  rcases toLower_cases c with h | ⟨h1, h2, h3⟩
  · rw [h]
  · have h4 : c.toLower ≠ '.' := fun he => by rw [he] at h3; omega
    have h5 : c ≠ '.' := fun he => by rw [he] at h1; omega
    rw [beq_eq_false_iff_ne.mpr h4, beq_eq_false_iff_ne.mpr h5]

theorem toLower_toLower (c : Char) : c.toLower.toLower = c.toLower := by
  rcases toLower_cases c with h | ⟨h1, h2, h3⟩
  · rw [h, h]
  · rcases toLower_cases c.toLower with h | ⟨h4, h5, _⟩
    · exact h
    · omega

/-! ### The key -/

/-- The characters of a quota key, before they are lowered. -/
def hostChars (l : List Char) : List Char :=
  ((l.dropWhile isWhitespace).rdropWhile isWhitespace).rdropWhile fun c => c == '.'

theorem toList_quotaKey (rdns : String) :
    (quotaKey rdns).toList = (hostChars rdns.toList).map Char.toLower := by
  rw [quotaKey, toAsciiLowercase, trimEndMatches, trim, String.toList_ofList,
    String.toList_ofList, String.toList_ofList, hostChars]

/-- Lowering first makes no difference. -/
theorem hostChars_map_toLower (l : List Char) :
    hostChars (l.map Char.toLower) = (hostChars l).map Char.toLower := by
  have hspace : isWhitespace ∘ Char.toLower = isWhitespace := funext isWhitespace_toLower
  have hdot : (fun c => c == '.') ∘ Char.toLower = fun c => c == '.' := funext toLower_beq_dot
  rw [hostChars, hostChars, List.dropWhile_map, hspace, rdropWhile_map, hspace, rdropWhile_map,
    hdot]

/-- The last character is whitespace. -/
def EndsInSpace (l : List Char) : Prop := ∃ c, l.getLast? = some c ∧ isWhitespace c = true

theorem rdropWhile_eq_self_of_not_endsInSpace {l : List Char} (h : ¬ EndsInSpace l) :
    l.rdropWhile isWhitespace = l := by
  rw [List.rdropWhile_eq_self_iff]
  intro hne hlast
  exact h ⟨l.getLast hne, List.getLast?_eq_some_getLast hne, hlast⟩

theorem hostChars_prefix (l : List Char) : hostChars l <+: l.dropWhile isWhitespace :=
  (List.rdropWhile_prefix _ _).trans (List.rdropWhile_prefix _ _)

/-- Nothing is trimmed at the front of a key. -/
theorem dropWhile_hostChars (l : List Char) :
    (hostChars l).dropWhile isWhitespace = hostChars l := by
  cases hl : hostChars l with
  | nil => rfl
  | cons c m =>
    obtain ⟨tail, htail⟩ := hostChars_prefix l
    rw [hl, List.cons_append] at htail
    rw [List.dropWhile_cons, not_of_dropWhile_eq_cons htail.symm]
    rfl

/-- **A key is its own key exactly when it does not end in whitespace.** -/
theorem hostChars_hostChars (l : List Char) :
    hostChars (hostChars l) = hostChars l ↔ ¬ EndsInSpace (hostChars l) := by
  have hfront := dropWhile_hostChars l
  have hdots : (hostChars l).rdropWhile (fun c => c == '.') = hostChars l :=
    List.rdropWhile_idempotent _ _
  constructor
  · rintro h ⟨c, hlast, hc⟩
    rw [hostChars, hfront] at h
    -- the last character is trimmed, and nothing comes back
    have hne : hostChars l ≠ [] := fun he => by rw [he] at hlast; cases hlast
    have hpre := (List.rdropWhile_prefix (fun c => c == '.')
      ((hostChars l).rdropWhile isWhitespace))
    rw [h] at hpre
    have heq := hpre.eq_of_length_le (List.rdropWhile_prefix _ _).length_le
    rw [eq_comm, List.rdropWhile_eq_self_iff] at heq
    refine heq hne ?_
    rw [List.getLast?_eq_some_getLast hne] at hlast
    rw [Option.some.inj hlast]
    exact hc
  · intro h
    rw [hostChars, hfront, rdropWhile_eq_self_of_not_endsInSpace h, hdots]

theorem dropWhile_not_endsInDot {u : List Char} (hu : u.rdropWhile (fun c => c == '.') = u) :
    (u.dropWhile isWhitespace).rdropWhile (fun c => c == '.') = u.dropWhile isWhitespace := by
  rw [List.rdropWhile_eq_self_iff]
  intro hne
  rw [(List.dropWhile_suffix isWhitespace).getLast hne]
  exact List.rdropWhile_eq_self_iff.mp hu _

/-- With dots behind it, a name is trimmed at the front only. -/
theorem hostChars_append_dots {u dots : List Char} (hne : dots ≠ [])
    (hdots : ∀ c ∈ dots, c = '.') (hu : u.rdropWhile (fun c => c == '.') = u) :
    hostChars (u ++ dots) = u.dropWhile isWhitespace := by
  have hdrop : dots.rdropWhile (fun c => c == '.') = [] :=
    List.rdropWhile_eq_nil_iff.mpr fun c hc => beq_iff_eq.mpr (hdots c hc)
  have hkeep : ∀ front : List Char, (front ++ dots).rdropWhile isWhitespace = front ++ dots := by
    intro front
    rw [List.rdropWhile_eq_self_iff]
    intro h
    rw [List.getLast_append_of_ne_nil h hne, hdots _ (List.getLast_mem hne)]
    decide
  have hstart : dots.dropWhile isWhitespace = dots := by
    obtain ⟨c, rest, rfl⟩ := List.exists_cons_of_ne_nil hne
    rw [hdots c List.mem_cons_self]
    rfl
  rw [hostChars, List.dropWhile_append, hstart]
  split_ifs with hall
  · rw [List.isEmpty_iff.mp hall, ← List.nil_append dots, hkeep, List.nil_append, hdrop]
  · rw [hkeep, rdropWhile_append, if_pos hdrop, dropWhile_not_endsInDot hu]

/-- **Trailing dots make no difference to the key**, unless it ends in whitespace. -/
theorem hostChars_rdropWhile {l : List Char} (h : ¬ EndsInSpace (hostChars l)) :
    hostChars (l.rdropWhile fun c => c == '.') = hostChars l := by
  have hu : (l.rdropWhile fun c => c == '.').rdropWhile (fun c => c == '.') =
      l.rdropWhile fun c => c == '.' := List.rdropWhile_idempotent _ _
  have hl := List.rdropWhile_append_rtakeWhile (p := fun c => c == '.') (l := l)
  have hdots : ∀ c ∈ l.rtakeWhile (fun c => c == '.'), c = '.' := by
    intro c hc
    have := List.mem_rtakeWhile_imp hc
    exact beq_iff_eq.mp this
  by_cases hne : (l.rtakeWhile fun c => c == '.') = []
  · rw [hne, List.append_nil] at hl
    rw [hl]
  · have hkey := hostChars_append_dots hne hdots hu
    rw [hl] at hkey
    rw [hkey] at h ⊢
    rw [hostChars, rdropWhile_eq_self_of_not_endsInSpace h, dropWhile_not_endsInDot hu]

/-! ### Names with whitespace before their dots -/

/-- The list starts with whitespace and goes on with something else somewhere. -/
def spaceThenOther : List Char → Bool
  | [] => false
  | c :: front => isWhitespace c && front.any fun d => !isWhitespace d

/-- Read from the end, past whitespace and then past dots, the name goes on with whitespace,
and something else is in front of it. -/
def spaceBeforeDots (rdns : String) : Bool :=
  spaceThenOther ((rdns.toList.reverse.dropWhile isWhitespace).dropWhile fun c => c == '.')

theorem spaceThenOther_eq_false {l : List Char} (h : ∀ c ∈ l, isWhitespace c = true) :
    spaceThenOther l = false := by
  cases l with
  | nil => rfl
  | cons c front =>
    rw [spaceThenOther, Bool.and_eq_false_iff, List.any_eq_false]
    refine Or.inr fun d hd => ?_
    rw [h d (List.mem_cons_of_mem c hd)]
    decide

/-- Whitespace behind everything else is not seen. -/
theorem spaceThenOther_append {l spaces : List Char}
    (hspaces : ∀ c ∈ spaces, isWhitespace c = true)
    (hlast : ∀ hne : l ≠ [], isWhitespace (l.getLast hne) = false) :
    spaceThenOther (l ++ spaces) = true ↔ ∃ c front, l = c :: front ∧ isWhitespace c = true := by
  cases l with
  | nil =>
    rw [List.nil_append, spaceThenOther_eq_false hspaces]
    simp
  | cons c front =>
    have hlast := hlast (List.cons_ne_nil c front)
    rw [List.cons_append, spaceThenOther, Bool.and_eq_true, List.any_eq_true]
    constructor
    · rintro ⟨hc, _⟩
      exact ⟨c, front, rfl, hc⟩
    · rintro ⟨c', front', he, hc⟩
      obtain ⟨rfl, rfl⟩ := List.cons.inj he
      refine ⟨hc, (c :: front).getLast (List.cons_ne_nil c front), ?_, by rw [hlast]; rfl⟩
      -- the last one is not the first, which is whitespace
      refine List.mem_append_left _ ?_
      rcases List.mem_cons.mp (List.getLast_mem (List.cons_ne_nil c front)) with h | h
      · rw [h, hc] at hlast
        cases hlast
      · exact h

theorem endsInSpace_iff {l : List Char} :
    EndsInSpace l ↔ ∃ c front, l.reverse = c :: front ∧ isWhitespace c = true := by
  rw [EndsInSpace]
  simp only [← List.head?_reverse, List.head?_eq_some_iff]
  constructor
  · rintro ⟨c, ⟨front, h⟩, hc⟩
    exact ⟨c, front, h, hc⟩
  · rintro ⟨c, front, h, hc⟩
    exact ⟨c, ⟨front, h⟩, hc⟩

/-- **Such a name has a key that ends in whitespace, and no other has.** -/
theorem spaceBeforeDots_iff (rdns : String) :
    spaceBeforeDots rdns = true ↔ EndsInSpace (hostChars rdns.toList) := by
  rw [endsInSpace_iff, spaceBeforeDots, hostChars, List.rdropWhile, List.rdropWhile,
    List.reverse_reverse, List.reverse_reverse]
  generalize rdns.toList = l
  have hspaces : ∀ c ∈ (l.takeWhile isWhitespace).reverse, isWhitespace c = true := fun c hc =>
    List.mem_takeWhile_imp (List.mem_reverse.mp hc)
  have hdropped : ∀ {p : Char → Bool} {m : List Char}, (∀ c ∈ m, isWhitespace c = true) →
      ∀ c ∈ m.dropWhile p, isWhitespace c = true := fun h c hc =>
    h c ((List.dropWhile_sublist _).subset hc)
  have hrest : ∀ hne : ((l.dropWhile isWhitespace).reverse.dropWhile isWhitespace).dropWhile
      (fun c => c == '.') ≠ [], isWhitespace (List.getLast _ hne) = false := by
    intro hne
    have hsuffix := (List.dropWhile_suffix (fun c => c == '.')).trans
      (List.dropWhile_suffix isWhitespace (l := (l.dropWhile isWhitespace).reverse))
    rw [hsuffix.getLast hne, List.getLast_reverse]
    exact List.head_dropWhile_not isWhitespace _
  -- the spaces in front, which `trim` takes off, stand behind the name when it is reversed
  rw [← spaceThenOther_append hspaces hrest]
  conv_lhs => rw [← List.takeWhile_append_dropWhile (p := isWhitespace) (l := l)]
  rw [List.reverse_append, List.dropWhile_append]
  split_ifs with hall
  · rw [List.isEmpty_iff.mp hall, List.dropWhile_nil, List.nil_append,
      spaceThenOther_eq_false hspaces, spaceThenOther_eq_false (hdropped (hdropped hspaces))]
  · rw [List.dropWhile_append]
    split_ifs with hdots
    · rw [List.isEmpty_iff.mp hdots, List.nil_append, spaceThenOther_eq_false hspaces,
        spaceThenOther_eq_false (hdropped hspaces)]
    · rfl

/-! ### One host -/

/-- A name whose key does not end in whitespace has the key of its normal form. -/
theorem quotaKey_normalize {rdns : String} (h : spaceBeforeDots rdns = false) :
    quotaKey (Fcrdns.normalize rdns) = quotaKey rdns := by
  have hlower : Char.toLower ∘ Char.toLower = Char.toLower := funext toLower_toLower
  apply String.toList_injective
  have hends : ¬ EndsInSpace (hostChars rdns.toList) := by
    rw [← spaceBeforeDots_iff, h]
    exact Bool.false_ne_true
  rw [toList_quotaKey, toList_quotaKey, Fcrdns.normalize, toAsciiLowercase, trimEndMatches,
    String.toList_ofList, String.toList_ofList, hostChars_map_toLower, hostChars_rdropWhile hends,
    List.map_map, hlower]

/-- **Canonicalising a key again changes it exactly when whitespace stands before the dots.** -/
theorem quotaKey_quotaKey_iff (rdns : String) :
    quotaKey (quotaKey rdns) = quotaKey rdns ↔ spaceBeforeDots rdns = false := by
  have hlower : Char.toLower ∘ Char.toLower = Char.toLower := funext toLower_toLower
  rw [← Bool.not_eq_true, spaceBeforeDots_iff, ← hostChars_hostChars, ← String.toList_inj,
    toList_quotaKey, toList_quotaKey, hostChars_map_toLower, List.map_map, hlower]
  constructor
  · intro h
    have hlen := congrArg List.length h
    rw [List.length_map, List.length_map] at hlen
    have hpre := hostChars_prefix (hostChars rdns.toList)
    rw [dropWhile_hostChars] at hpre
    exact hpre.eq_of_length hlen
  · intro h
    rw [h]

/-- **Two spellings of one host have one key, and one that canonicalising leaves alone,
exactly when neither has whitespace before its dots.** -/
theorem one_host_one_quota_iff (a b : String) (h : Fcrdns.normalize a = Fcrdns.normalize b)
    (keyA keyB : Vector UInt8 32) :
    ((ClientIdentity.mk keyA a).quotaKey = (ClientIdentity.mk keyB b).quotaKey ∧
        quotaKey a = (ClientIdentity.mk keyA a).quotaKey ∧
        quotaKey b = (ClientIdentity.mk keyB b).quotaKey ∧
        quotaKey (ClientIdentity.mk keyA a).quotaKey = (ClientIdentity.mk keyA a).quotaKey ∧
        quotaKey (ClientIdentity.mk keyB b).quotaKey = (ClientIdentity.mk keyB b).quotaKey) ↔
      spaceBeforeDots a = false ∧ spaceBeforeDots b = false := by
  simp only [ClientIdentity.quotaKey]
  constructor
  · rintro ⟨_, _, _, ha, hb⟩
    exact ⟨(quotaKey_quotaKey_iff a).mp ha, (quotaKey_quotaKey_iff b).mp hb⟩
  · rintro ⟨ha, hb⟩
    have hb' := (quotaKey_quotaKey_iff b).mpr hb
    refine ⟨?_, trivial, trivial, (quotaKey_quotaKey_iff a).mpr ha, hb'⟩
    rw [← quotaKey_normalize ha, ← quotaKey_normalize hb, h]

theorem one_host_one_quota_iff_dot :
    Fcrdns.normalize "Host.Example.Net." = Fcrdns.normalize "host.example.net" ∧
      quotaKey "Host.Example.Net." = quotaKey "host.example.net" := by
  have h : Fcrdns.normalize "Host.Example.Net." = Fcrdns.normalize "host.example.net" := by
    decide +kernel
  have hkey := (one_host_one_quota_iff "Host.Example.Net." "host.example.net" h
    (Vector.replicate 32 0) (Vector.replicate 32 1)).mpr ⟨by decide +kernel, by decide +kernel⟩
  exact ⟨h, hkey.1⟩

/-- **A space before the last dot makes two quotas of one host.** -/
theorem space_before_dot_splits_quota :
    Fcrdns.normalize "host .net ." = Fcrdns.normalize "host .net " ∧
      quotaKey "host .net ." = "host .net " ∧ quotaKey "host .net " = "host .net" ∧
      quotaKey "host .net ." ≠ quotaKey "host .net " ∧
      quotaKey (quotaKey "host .net .") ≠ quotaKey "host .net ." := by
  decide +kernel

end Binda
