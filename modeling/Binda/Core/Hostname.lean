import Binda.Core.ReadName

/-!
# The name a query asks for

`encode_query` writes the labels of a name, `read_name` reads them back.  The length of a
label is cut to one byte, and a byte of `192` and more starts a pointer, so the two agree on
labels shorter than that (`readNameFrom_labels`).  A longer label is read as something else:
as the end of the name, as a pointer, or as a shorter label whose rest is taken for more
labels.  `readName_encodeQuery_iff` says it is never read as itself.
-/

namespace Binda.Fcrdns

variable {buf : List UInt8} {s : NameState}

theorem isPointer_iff {len : UInt8} : isPointer len = true ↔ 192 ≤ len.toNat := by
  have key : ∀ n : Fin 256, (isPointer (UInt8.ofNat n) = true ↔ 192 ≤ n.val) := by
    decide +kernel
  have hlen := key ⟨len.toNat, len.toNat_lt⟩
  rwa [UInt8.ofNat_toNat] at hlen

theorem isPointer_eq_false_iff {len : UInt8} : isPointer len = false ↔ len.toNat < 192 := by
  rw [Bool.eq_false_iff, Ne, isPointer_iff, not_le]

/-! ### Reading labels where they stand -/

theorem getElem?_of_drop {pos : Nat} {b : UInt8} {rest : List UInt8}
    (h : buf.drop pos = b :: rest) : buf[pos]? = some b := by
  have := congrArg (fun l => l[0]?) h
  simpa using this

/-- A label that stands at the position is read. -/
theorem readNameRound_of_label {len : UInt8} {label rest : List UInt8}
    (h : buf.drop s.pos = len :: (label ++ rest)) (hlen : label.length = len.toNat)
    (hzero : len ≠ 0) (hptr : isPointer len = false) :
    readNameRound buf s = .next { s with
      labels := s.labels ++ [String.fromUtf8Lossy label]
      pos := s.pos + 1 + len.toNat } := by
  have hpos : 0 < len.toNat := Nat.pos_of_ne_zero fun he => hzero (UInt8.toNat_inj.mp he)
  have hrest : buf.drop (s.pos + 1) = label ++ rest := by
    rw [← List.drop_drop, h, List.drop_one, List.tail_cons]
  have hrange : buf.getRange? (s.pos + 1) (s.pos + 1 + len.toNat) = some label :=
    (List.getRange?_eq_some hpos).mpr ⟨hlen, rest, hrest⟩
  rw [readNameRound, getElem?_of_drop h]
  simp only [if_neg hzero, hptr, hrange, Bool.false_eq_true, if_false]

/-- The length zero ends the name. -/
theorem readNameFrom_of_zero {rest : List UInt8} (h : buf.drop s.pos = 0 :: rest) :
    readNameFrom buf s = some (".".intercalate s.labels, s.endPos.getD (s.pos + 1)) := by
  have hround : readNameRound buf s =
      .finished (".".intercalate s.labels, s.endPos.getD (s.pos + 1)) := by
    rw [readNameRound, getElem?_of_drop h]
    cases s.endPos <;> rfl
  rw [readNameFrom_eq, hround]

/-- The labels read so far stay at the front of the name. -/
theorem labels_of_readNameFrom {name : String} {stop : Nat} {s : NameState}
    (h : readNameFrom buf s = some (name, stop)) :
    ∃ more, name = ".".intercalate (s.labels ++ more) := by
  rw [readNameFrom_eq] at h
  cases hround : readNameRound buf s with
  | failed =>
    rw [hround] at h
    cases h
  | finished r =>
    rw [hround] at h
    have hname : r = (name, stop) := Option.some.inj h
    have hr := (readNameRound_eq_finished hround).2
    rw [hname, Prod.mk.injEq] at hr
    exact ⟨[], by rw [hr.1, List.append_nil]⟩
  | next t =>
    rw [hround] at h
    have hless := remaining_lt hround
    obtain ⟨more, hmore⟩ := labels_of_readNameFrom h
    rcases readNameRound_eq_next hround with
      ⟨_, label, _, _, _, _, rfl⟩ | ⟨_, _, _, _, _, _, _, rfl⟩
    · exact ⟨String.fromUtf8Lossy label :: more, by rw [hmore, List.append_assoc]; rfl⟩
    · exact ⟨more, hmore⟩
termination_by s.remaining buf
decreasing_by exact hless

/-! ### The labels of a query -/

theorem mem_queryLabels {name label : String} (h : label ∈ queryLabels name) :
    label.asBytes ≠ [] ∧ '.' ∉ label.toList := by
  obtain ⟨hmem, hne⟩ := List.mem_filter.mp h
  obtain ⟨part, hpart, rfl⟩ := List.mem_map.mp hmem
  have hdot := List.notMem_of_mem_splitOn hpart
  refine ⟨?_, by rwa [String.toList_ofList]⟩
  rw [Ne, String.asBytes_eq_nil]
  intro he
  have hempty := String.toList_eq_nil_iff.mp he
  rw [hempty] at hne
  cases hne

/-- A name without dots is one label. -/
theorem queryLabels_eq_singleton {name : String} (hne : name.toList ≠ [])
    (hdot : '.' ∉ name.toList) : queryLabels name = [name] := by
  have hempty : (!name.isEmpty) = true := by
    rw [Bool.not_eq_true', ← Bool.not_eq_true, String.isEmpty_iff]
    intro he
    rw [he] at hne
    exact hne rfl
  rw [queryLabels, List.splitOn_eq_singleton hdot, List.map_singleton, String.ofList_toList,
    List.filter_singleton, hempty, cond_true]

/-- **Labels below 192 bytes are read back as they are.** -/
theorem readNameFrom_labels {ls acc : List String} {pos : Nat} {rest : List UInt8}
    (h : buf.drop pos = ls.flatMap encodeLabel ++ rest)
    (hls : ∀ l ∈ ls, l.asBytes ≠ [] ∧ l.asBytes.length < 192) :
    readNameFrom buf ⟨acc, pos, none, 0⟩ =
      readNameFrom buf ⟨acc ++ ls, pos + (ls.flatMap encodeLabel).length, none, 0⟩ := by
  induction ls generalizing acc pos with
  | nil => rw [List.append_nil, List.flatMap_nil, List.length_nil, Nat.add_zero]
  | cons l ls ih =>
    obtain ⟨⟨hne, hlt⟩, hls⟩ := List.forall_mem_cons.mp hls
    have hpos := List.length_pos_of_ne_nil hne
    have hnat : (UInt8.ofNat l.asBytes.length).toNat = l.asBytes.length := by
      rw [UInt8.toNat_ofNat']
      omega
    rw [List.flatMap_cons, encodeLabel, List.cons_append, List.cons_append, List.append_assoc] at h
    have hzero : UInt8.ofNat l.asBytes.length ≠ 0 := by
      intro he
      rw [he] at hnat
      have : (0 : UInt8).toNat = 0 := rfl
      omega
    have hptr : isPointer (UInt8.ofNat l.asBytes.length) = false :=
      isPointer_eq_false_iff.mpr (hnat.trans_lt hlt)
    have hround := readNameRound_of_label (s := ⟨acc, pos, none, 0⟩) h hnat.symm hzero hptr
    have hdrop : buf.drop (pos + 1 + l.asBytes.length) = ls.flatMap encodeLabel ++ rest := by
      rw [← List.drop_drop, ← List.drop_drop, h, List.drop_one, List.tail_cons, List.drop_left]
    rw [readNameFrom_eq, hround]
    simp only [String.fromUtf8Lossy_asBytes, hnat]
    rw [ih hdrop hls, List.append_assoc, List.singleton_append, List.flatMap_cons, encodeLabel,
      List.length_append, List.length_cons]
    congr 2
    omega

/-- The loop at the question of a query. -/
theorem drop_encodeQuery (id : UInt16) (name : String) (qtype : UInt16) :
    (encodeQuery id name qtype).drop 12 = (queryLabels name).flatMap encodeLabel ++
      0 :: (qtype.toBeBytes ++ CLASS_IN.toBeBytes) := by
  have hlen : (queryHeader id).length = 12 := rfl
  rw [encodeQuery, ← hlen, List.append_assoc, List.append_assoc, List.append_assoc,
    List.drop_left, List.singleton_append]

theorem length_encodeQuery (id : UInt16) (name : String) (qtype : UInt16) :
    (encodeQuery id name qtype).length =
      12 + ((queryLabels name).flatMap encodeLabel).length + 5 := by
  have hlen : (queryHeader id).length = 12 := rfl
  simp only [encodeQuery, List.length_append, hlen, UInt16.toBeBytes_length, List.length_singleton]

/-- Joined names that agree up to a label agree on it, unless one has a longer text there. -/
theorem length_le_of_intercalate_eq {good after more : List String} {label other : String}
    (hdot : ∀ l ∈ good ++ label :: after, '.' ∉ l.toList)
    (h : ".".intercalate (good ++ label :: after) = ".".intercalate (good ++ other :: more)) :
    label.toList.length ≤ other.toList.length := by
  have hsplit := congrArg (fun name => name.toList.splitOn '.') h
  have hdot' : ∀ l ∈ (good ++ label :: after).map String.toList, '.' ∉ l := by
    intro l hl
    obtain ⟨l', hl', rfl⟩ := List.mem_map.mp hl
    exact hdot l' hl'
  have hgood : ∀ l ∈ good.map String.toList, '.' ∉ l := by
    intro l hl
    refine hdot' l ?_
    rw [List.map_append]
    exact List.mem_append_left _ hl
  have hsep : ".".toList = ['.'] := rfl
  simp only [String.toList_intercalate, hsep] at hsplit
  rw [List.splitOn_intercalate_eq_flatMap '.' (by simp),
    List.splitOn_intercalate_eq_flatMap '.' (by simp),
    List.flatMap_splitOn_eq_self.mpr hdot', List.map_append, List.map_append, List.flatMap_append,
    List.flatMap_splitOn_eq_self.mpr hgood] at hsplit
  have htail := List.append_cancel_left hsplit
  rw [List.map_cons, List.map_cons, List.flatMap_cons] at htail
  -- the label is the first piece of the other text
  obtain ⟨piece, pieces, hpieces⟩ :=
    List.exists_cons_of_ne_nil (List.splitOn_ne_nil '.' other.toList)
  rw [hpieces, List.cons_append] at htail
  rw [(List.cons.inj htail).1]
  refine (List.sublist_of_mem_splitOn (x := '.') (l := other.toList) ?_).length_le
  rw [hpieces]
  exact List.mem_cons_self

/-- **A label of 192 bytes and more is read as a shorter one**, where it does not end the
name. -/
theorem shorter_of_long {good : List String} {bad name : String} {pos stop : Nat}
    {rest : List UInt8}
    (hpos : buf.drop pos = UInt8.ofNat bad.asBytes.length :: (bad.asBytes ++ rest))
    (hbad : 192 ≤ bad.asBytes.length)
    (h : readNameFrom buf ⟨good, pos, none, 0⟩ = some (name, stop)) (hstop : pos + 2 < stop) :
    ∃ short more, name = ".".intercalate (good ++ short :: more) ∧
      short.toList.length < bad.toList.length := by
  have hbyte := getElem?_of_drop hpos
  have hlong := congrArg List.length hpos
  rw [List.length_drop, List.length_cons, List.length_append] at hlong
  have hend := end_of_readNameFrom h
  simp only [Option.none_or] at hend
  by_cases hzero : UInt8.ofNat bad.asBytes.length = 0
  · rw [hzero] at hbyte
    rw [nameEnd?_zero hbyte] at hend
    have := Option.some.inj hend
    omega
  cases hptr : isPointer (UInt8.ofNat bad.asBytes.length) with
  | true =>
    rw [nameEnd?_pointer hbyte hzero hptr (by omega)] at hend
    have := Option.some.inj hend
    omega
  | false =>
    have hnat : (UInt8.ofNat bad.asBytes.length).toNat = bad.asBytes.length % 256 :=
      UInt8.toNat_ofNat'
    have hlow : bad.asBytes.length % 256 < 192 := hnat ▸ isPointer_eq_false_iff.mp hptr
    have hcut := List.take_append_drop (bad.asBytes.length % 256) bad.asBytes
    rw [← hcut, List.append_assoc, hcut] at hpos
    have hround := readNameRound_of_label (s := ⟨good, pos, none, 0⟩) hpos
      (by rw [List.length_take, hnat]; omega) hzero hptr
    rw [readNameFrom_eq, hround] at h
    obtain ⟨more, hmore⟩ := labels_of_readNameFrom h
    rw [List.append_assoc, List.singleton_append] at hmore
    refine ⟨_, more, hmore, ?_⟩
    rw [String.fromUtf8Lossy, String.toList_ofList]
    exact String.length_lossyChars_take_lt (by omega)

/-- **A name with a label of 192 bytes and more is not read back.**  Either it ends too early,
or what is read in the label's place has fewer characters. -/
theorem readName_ne_of_long {id qtype : UInt16} {name : String} {good after : List String}
    {bad : String} (hsplit : queryLabels name = good ++ bad :: after)
    (hgood : ∀ l ∈ good, l.asBytes.length < 192) (hbad : 192 ≤ bad.asBytes.length) :
    readName (encodeQuery id name qtype) 12 ≠
      some (".".intercalate (queryLabels name), (encodeQuery id name qtype).length - 4) := by
  intro h
  have hlabels : ∀ l ∈ good ++ bad :: after, l.asBytes ≠ [] ∧ '.' ∉ l.toList := by
    rw [← hsplit]
    exact fun l => mem_queryLabels
  have hlen := length_encodeQuery id name qtype
  have hdrop := drop_encodeQuery id name qtype
  rw [hsplit, List.flatMap_append, List.flatMap_cons] at hlen hdrop
  rw [List.append_assoc] at hdrop
  generalize encodeQuery id name qtype = buf at h hlen hdrop
  -- the labels in front of it are read
  rw [readName, NameState.start, readNameFrom_labels hdrop fun l hl =>
    ⟨(hlabels l (List.mem_append_left _ hl)).1, hgood l hl⟩, List.nil_append] at h
  have hpos : buf.drop (12 + (good.flatMap encodeLabel).length) =
      UInt8.ofNat bad.asBytes.length :: (bad.asBytes ++
        (after.flatMap encodeLabel ++ 0 :: (qtype.toBeBytes ++ CLASS_IN.toBeBytes))) := by
    rw [← List.drop_drop, hdrop, List.drop_left, encodeLabel, List.cons_append, List.cons_append,
      List.append_assoc]
  rw [List.length_append, List.length_append, encodeLabel, List.length_cons] at hlen
  obtain ⟨short, more, hmore, hless⟩ := shorter_of_long hpos hbad h (by omega)
  rw [hsplit] at hmore
  have hle := length_le_of_intercalate_eq (fun l hl => (hlabels l hl).2) hmore
  omega

/-- **A query asks for the name it was made for exactly when every label is below 192
bytes.** -/
theorem readName_encodeQuery_iff (id : UInt16) (name : String) (qtype : UInt16) :
    readName (encodeQuery id name qtype) 12 =
        some (".".intercalate (queryLabels name), (encodeQuery id name qtype).length - 4) ↔
      ∀ label ∈ queryLabels name, label.asBytes.length < 192 := by
  constructor
  · intro h
    by_contra hlong
    push Not at hlong
    obtain ⟨label, hlabel, hlen⟩ := hlong
    -- the first label that is too long
    have hfound : ((queryLabels name).find? fun l : String => 192 ≤ l.asBytes.length).isSome :=
      List.find?_isSome.mpr ⟨label, hlabel, decide_eq_true hlen⟩
    obtain ⟨bad, hfind⟩ := Option.isSome_iff_exists.mp hfound
    obtain ⟨hbad, good, after, hsplit, hgood⟩ := List.find?_eq_some_iff_append.mp hfind
    refine readName_ne_of_long hsplit (fun l hl => ?_) (of_decide_eq_true hbad) h
    have := hgood l hl
    simpa using this
  · intro hshort
    have hdrop := drop_encodeQuery id name qtype
    have hend : (encodeQuery id name qtype).drop
        (12 + ((queryLabels name).flatMap encodeLabel).length) =
          0 :: (qtype.toBeBytes ++ CLASS_IN.toBeBytes) := by
      rw [← List.drop_drop, hdrop, List.drop_left]
    have hzero := readNameFrom_of_zero (s := ⟨queryLabels name, _, none, 0⟩) hend
    rw [readName, NameState.start, readNameFrom_labels hdrop fun l hl =>
      ⟨(mem_queryLabels hl).1, hshort l hl⟩, List.nil_append, hzero, length_encodeQuery]
    rfl

/-- A claimed name of one label, which starts with a letter, the length three, three letters
and the length zero. -/
def hiddenLabels (pad : List Char) : String :=
  String.ofList (['v', '\x03', 'c', 'o', 'm', '\x00'] ++ pad)

theorem queryLabels_hiddenLabels {pad : List Char} (hdot : '.' ∉ pad) :
    queryLabels (hiddenLabels pad) = [hiddenLabels pad] := by
  refine queryLabels_eq_singleton ?_ ?_ <;> rw [hiddenLabels, String.toList_ofList]
  · exact List.cons_ne_nil _ _
  · rw [List.mem_append, not_or]
    exact ⟨by decide, hdot⟩

theorem asBytes_hiddenLabels (pad : List Char) :
    (hiddenLabels pad).asBytes =
      [118, 3, 99, 111, 109, 0] ++ pad.flatMap String.utf8EncodeChar := by
  rw [hiddenLabels, String.asBytes_ofList, List.flatMap_append]
  rfl

/-- With 257 bytes it is read as the two labels it hides. -/
theorem readName_hiddenLabels (id qtype : UInt16) {pad : List Char} (hdot : '.' ∉ pad)
    (hlen : (pad.flatMap String.utf8EncodeChar).length = 251) :
    readName (encodeQuery id (hiddenLabels pad) qtype) 12 = some ("v.com", 19) := by
  have hbyte : UInt8.ofNat (hiddenLabels pad).asBytes.length = 1 := by
    rw [asBytes_hiddenLabels, List.length_append, hlen]
    rfl
  have hdrop : (encodeQuery id (hiddenLabels pad) qtype).drop 12 =
      ["v", "com"].flatMap encodeLabel ++ 0 :: (pad.flatMap String.utf8EncodeChar ++
        0 :: (qtype.toBeBytes ++ CLASS_IN.toBeBytes)) := by
    rw [drop_encodeQuery, queryLabels_hiddenLabels hdot, List.flatMap_singleton, encodeLabel,
      hbyte, asBytes_hiddenLabels]
    rfl
  have hend : (encodeQuery id (hiddenLabels pad) qtype).drop (12 + 6) =
      0 :: (pad.flatMap String.utf8EncodeChar ++
        0 :: (qtype.toBeBytes ++ CLASS_IN.toBeBytes)) := by
    rw [← List.drop_drop, hdrop]
    rfl
  rw [readName, NameState.start, readNameFrom_labels hdrop (by decide)]
  exact readNameFrom_of_zero hend

/-- **A label of 257 bytes is asked for as the name its bytes spell.** -/
theorem overlong_label_asks_for_another_name :
    readName (encodeQuery 1 (hiddenLabels (List.replicate 251 'a')) TYPE_A) 12 =
        some ("v.com", 19) ∧
      readName (encodeQuery 1 (hiddenLabels (List.replicate 251 'a')) TYPE_A) 12 ≠
        some (".".intercalate (queryLabels (hiddenLabels (List.replicate 251 'a'))),
          (encodeQuery 1 (hiddenLabels (List.replicate 251 'a')) TYPE_A).length - 4) := by
  have hdot : '.' ∉ List.replicate 251 'a' := fun h =>
    absurd (List.mem_replicate.mp h).2 (by decide)
  have hlen : ((List.replicate 251 'a').flatMap String.utf8EncodeChar).length = 251 := by
    decide +kernel
  have hread := readName_hiddenLabels 1 TYPE_A hdot hlen
  refine ⟨hread, ?_⟩
  rw [hread, length_encodeQuery, queryLabels_hiddenLabels hdot, List.flatMap_singleton,
    encodeLabel, asBytes_hiddenLabels, List.length_cons, List.length_append, hlen]
  intro h
  exact absurd (Prod.mk.inj (Option.some.inj h)).2 (by decide)

end Binda.Fcrdns
