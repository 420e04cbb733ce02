import Binda.Lib.Bytes

/-!
# Readers of binary messages

A **reader** takes a value off the front of a byte string.  `Reads r code a`:
`r` reads `a` off `code`, whatever follows, and consumes no more than that.  A
message format is read back field by field: `Reads.bind` for one field after
another, `Reader.reads_times` for a counted list.

**Frames**: byte strings that are not empty, each behind its length in four
bytes, closed by the length zero.  The reader of frames reads them off what is
written (`reads_frames`), so a list of frames is read back in one way only
(`framed_inj`).
-/

/-- A reader takes a value off the front of a byte string. -/
abbrev Reader (α : Type) := StateT (List UInt8) Option α

/-- `r` reads `a` off `code`, whatever follows. -/
def Reads {α : Type} (r : Reader α) (code : List UInt8) (a : α) : Prop :=
  ∀ rest, r (code ++ rest) = some (a, rest)

namespace Reads

variable {α β : Type} {r : Reader α} {u v : List UInt8} {a : α}

theorem pure (a : α) : Reads (Pure.pure a) [] a := fun _ => rfl

/-- **One field after another.** -/
theorem bind {f : α → Reader β} {b : β} (h : Reads r u a) (h' : Reads (f a) v b) :
    Reads (r >>= f) (u ++ v) b := by
  intro rest
  show (r ((u ++ v) ++ rest)).bind (fun p => f p.1 p.2) = _
  rw [List.append_assoc, h]
  exact h' rest

/-- The last field, and what is made of it. -/
theorem bind_pure {f : α → β} (h : Reads r u a) : Reads (r >>= fun a => Pure.pure (f a)) u (f a) := by
  have := h.bind (f := fun a => Pure.pure (f a)) (pure (f a))
  rwa [List.append_nil] at this

end Reads

namespace Reader

variable {α β : Type}

/-- The next `n` bytes. -/
def bytes (n : Nat) : Reader (List UInt8) := fun l =>
  if n ≤ l.length then some (l.take n, l.drop n) else none

/-- A word of two bytes, the most significant one first. -/
def u16 : Reader UInt16
  | a :: b :: l => some (UInt16.ofBeBytes [a, b], l)
  | _ => none

/-- A word of four bytes, the most significant one first. -/
def u32 : Reader UInt32
  | a :: b :: c :: d :: l => some (UInt32.ofBeBytes [a, b, c, d], l)
  | _ => none

/-- `n` values in a row. -/
def times (r : Reader α) : Nat → Reader (List α)
  | 0 => pure []
  | n + 1 => do
    let a ← r
    let as ← times r n
    pure (a :: as)

theorem reads_bytes (l : List UInt8) : Reads (bytes l.length) l l := by
  intro rest
  rw [bytes, if_pos (by simp), List.take_left, List.drop_left]

theorem reads_u16 (a : UInt16) : Reads u16 a.toBeBytes a := by
  intro rest
  show some (UInt16.ofBeBytes a.toBeBytes, rest) = some (a, rest)
  rw [UInt16.ofBeBytes_toBeBytes]

theorem reads_u32 (a : UInt32) : Reads u32 a.toBeBytes a := by
  intro rest
  show some (UInt32.ofBeBytes a.toBeBytes, rest) = some (a, rest)
  rw [UInt32.ofBeBytes_toBeBytes]

/-- **A counted list.** -/
theorem reads_times {r : Reader β} {code : α → List UInt8} {f : α → β} :
    ∀ {l : List α}, (∀ a ∈ l, Reads r (code a) (f a)) →
      Reads (times r l.length) (l.flatMap code) (l.map f)
  | [], _ => Reads.pure []
  | a :: l, h => by
    rw [List.flatMap_cons, List.map_cons, List.length_cons, times]
    refine (h a (List.mem_cons_self ..)).bind (Reads.bind_pure ?_)
    exact reads_times fun b hb => h b (List.mem_cons_of_mem a hb)

/-! ### Frames -/

/-- A byte string that fits into one frame: not empty, and its length fits into four bytes. -/
def Framable (b : List UInt8) : Prop := b ≠ [] ∧ b.length < 2 ^ 32

instance (b : List UInt8) : Decidable (Framable b) := inferInstanceAs (Decidable (_ ∧ _))

/-- One frame. -/
def frame (b : List UInt8) : List UInt8 := (UInt32.ofNat b.length).toBeBytes ++ b

/-- A list of frames, closed by the length zero. -/
def framed (bs : List (List UInt8)) : List UInt8 := bs.flatMap frame ++ (0 : UInt32).toBeBytes

/-- A list of frames, up to the one of length zero. -/
def frames : Reader (List (List UInt8))
  | b₀ :: b₁ :: b₂ :: b₃ :: l =>
    let n := UInt32.ofBeBytes [b₀, b₁, b₂, b₃]
    if n.toNat = 0 then some ([], l)
    else if n.toNat ≤ l.length then
      (frames (l.drop n.toNat)).map fun (bs, rest) => (l.take n.toNat :: bs, rest)
    else none
  | _ => none
termination_by l => l.length
decreasing_by simp only [List.length_drop, List.length_cons]; omega

theorem framed_cons (b : List UInt8) (bs : List (List UInt8)) :
    framed (b :: bs) = frame b ++ framed bs := by
  rw [framed, framed, List.flatMap_cons, List.append_assoc]

theorem frame_length (b : List UInt8) : (frame b).length = 4 + b.length := by
  rw [frame, List.length_append, UInt32.toBeBytes_length]

theorem length_le_framed {b : List UInt8} {bs : List (List UInt8)} (hb : b ∈ bs) :
    b.length ≤ (framed bs).length := by
  induction bs with
  | nil => cases hb
  | cons c bs ih =>
    rw [framed_cons, List.length_append, frame_length]
    rcases List.mem_cons.mp hb with rfl | hb
    · omega
    · have := ih hb
      omega

/-- Behind the length of a frame. -/
theorem frames_length (n : UInt32) (l : List UInt8) :
    frames (n.toBeBytes ++ l) =
      if n.toNat = 0 then some ([], l)
      else if n.toNat ≤ l.length then
        (frames (l.drop n.toNat)).map fun (bs, rest) => (l.take n.toNat :: bs, rest)
      else none := by
  rw [UInt32.toBeBytes, List.cons_append, List.cons_append, List.cons_append, List.cons_append,
    List.nil_append, frames, ← UInt32.toBeBytes, UInt32.ofBeBytes_toBeBytes]

theorem frames_nil (l : List UInt8) : frames ((0 : UInt32).toBeBytes ++ l) = some ([], l) := by
  rw [frames_length, if_pos UInt32.toNat_zero]

theorem frames_frame {b : List UInt8} (hb : Framable b) (l : List UInt8) :
    frames (frame b ++ l) = (frames l).map fun (bs, rest) => (b :: bs, rest) := by
  have hn : (UInt32.ofNat b.length).toNat = b.length := UInt32.toNat_ofNat_of_lt' hb.2
  have hpos := List.length_pos_of_ne_nil hb.1
  rw [frame, List.append_assoc, frames_length, hn, if_neg (by omega), if_pos (by simp),
    List.take_left, List.drop_left]

theorem reads_frames {bs : List (List UInt8)} (h : ∀ b ∈ bs, Framable b) :
    Reads frames (framed bs) bs := by
  intro rest
  induction bs with
  | nil => exact frames_nil rest
  | cons b bs ih =>
    rw [framed_cons, List.append_assoc, frames_frame (h b (List.mem_cons_self ..)),
      ih fun c hc => h c (List.mem_cons_of_mem b hc)]
    rfl

/-- **A list of frames is read back in one way only.** -/
theorem framed_inj {bs cs : List (List UInt8)} {u v : List UInt8} (hb : ∀ b ∈ bs, Framable b)
    (hc : ∀ c ∈ cs, Framable c) (h : framed bs ++ u = framed cs ++ v) : bs = cs ∧ u = v := by
  have hr := reads_frames hb u
  rw [h, reads_frames hc v] at hr
  obtain ⟨rfl, rfl⟩ := Prod.mk.inj (Option.some.inj hr)
  exact ⟨rfl, rfl⟩

end Reader
