import Mathlib.Tactic.Ring
import Mathlib.Tactic.NormNum
import Qdmi.Lib.Outcome

/-!
# Memory of a C Caller

What a C function can do to the memory its caller hands it, and how it can
fail to return.

A buffer is the list of its bytes. A function that is given one writes through
a pointer it advances, and nothing but its own arithmetic keeps that pointer
inside the buffer. `Cursor` is such a pointer; its third field says that it
never stands past the end, so every write has to decide whether it still fits.
A write that does not fit is a `Fault`, an outcome of its own: the standard
promises nothing about the program after it, so a fault is neither a status
code nor an exception.

`foldlM_puts` is the rule the encoders are verified with. A loop whose body
appends some bytes per element appends the concatenation of those bytes, so a
loop over a buffer turns into one `puts` and its bounds check into a comparison
of lengths.

Allocation failure is an input. `Alloc` answers, for each allocation a call
makes, whether it succeeds, so a theorem quantified over it covers every
pattern of failures.

## Main definitions

* `Fault`: The undefined behaviours a call can run into.
* `Exn`: The standard exceptions a call can throw.
* `Alloc`: The outcome of each allocation of one call.
* `leBytes`, `leNat`: Little-endian integers.
* `overwrite`: A buffer with some bytes replaced.
* `Cursor`: A write pointer into a buffer.
* `Cursor.puts`: Writing bytes and advancing.
* `Cursor.patchBack`: Replacing the byte just written.

## Theorems

* `length_leBytes`: An encoding has the width asked for.
* `leNat_leBytes`: Reading an encoding back.
* `length_overwrite`: Overwriting inside a buffer keeps its length.
* `overwrite_append`: Two adjacent overwrites are one.
* `overwrite_same`: The second of two overwrites of one place wins.
* `Cursor.puts_ok`: Bytes that fit are written.
* `Cursor.puts_error`: Bytes that do not fit are a fault.
* `Cursor.written_start`: The buffer after a write from its start.
* `Cursor.puts_append`: Writing in two goes.
* `Cursor.puts_patchBack`: Replacing the last of the bytes written.
* `foldlM_puts`: A loop that appends is one write.
* `Cursor.avoids_puts`, `Cursor.avoids_patchBack`: The only fault of a write.
-/

namespace Qdmi

/-- The undefined behaviours a call can run into. -/
inductive Fault where
  | danglingHandle
  | readPastEnd
  | writePastEnd
  | shiftCount
  | floatCast
  deriving DecidableEq, Repr

/-- The standard exceptions a call can throw. -/
inductive Exn where
  | badAlloc
  | lengthError
  | outOfRange
  | invalidArgument
  | runtimeError
  | filesystemError
  deriving DecidableEq, Repr

/-- Whether the `k`-th allocation of a call succeeds. -/
abbrev Alloc := Nat → Bool

/-- The bytes of a caller's buffer. -/
abbrev Buffer := List UInt8

/-- One past the largest `size_t`. -/
def sizeTMod : Nat := 2 ^ 64

/-- `max_size()` of a standard vector whose elements take `elem` bytes. -/
def vectorMaxSize (elem : Nat) : Nat := (2 ^ 63 - 1) / elem

/-- The bytes of an ASCII string literal, without its terminator. -/
def ascii (s : String) : List UInt8 := s.toList.map (fun c => UInt8.ofNat c.toNat)

/-! ## Little-endian integers -/

/-- The `w` little-endian bytes of `n`. -/
def leBytes : Nat → Nat → List UInt8
  | 0, _ => []
  | w + 1, n => UInt8.ofNat (n % 256) :: leBytes w (n / 256)

/-- The number with the given little-endian bytes. -/
def leNat : List UInt8 → Nat
  | [] => 0
  | b :: bs => b.toNat + 256 * leNat bs

@[simp]
theorem length_leBytes (w n : Nat) : (leBytes w n).length = w := by
  induction w generalizing n with
  | zero => rfl
  | succ w ih => simp only [leBytes, List.length_cons, ih]

/-- Reading an encoding back, up to what its width can hold. -/
theorem leNat_leBytes (w n : Nat) : leNat (leBytes w n) = n % 256 ^ w := by
  induction w generalizing n with
  | zero => rw [leBytes, leNat, pow_zero, Nat.mod_one]
  | succ w ih =>
      have hbyte : (UInt8.ofNat (n % 256)).toNat = n % 256 := by
        rw [UInt8.toNat_ofNat', Nat.mod_mod]
      rw [leBytes, leNat, ih, hbyte, pow_succ, Nat.mul_comm (256 ^ w) 256, Nat.mod_mul]

/-! ## Overwriting -/

/-- The buffer with the bytes from `pos` on replaced by `bs`. -/
def overwrite (buf : Buffer) (pos : Nat) (bs : List UInt8) : Buffer :=
  buf.take pos ++ bs ++ buf.drop (pos + bs.length)

theorem length_overwrite (buf : Buffer) (pos : Nat) (bs : List UInt8)
    (h : pos + bs.length ≤ buf.length) : (overwrite buf pos bs).length = buf.length := by
  simp only [overwrite, List.length_append, List.length_take, List.length_drop]
  omega

@[simp]
theorem overwrite_nil (buf : Buffer) (pos : Nat) : overwrite buf pos [] = buf := by
  simp only [overwrite, List.append_nil, List.length_nil, Nat.add_zero, List.take_append_drop]

/-- Overwriting twice in adjacent places is overwriting once. -/
theorem overwrite_append (buf : Buffer) (pos : Nat) (xs ys : List UInt8)
    (h : pos + xs.length ≤ buf.length) :
    overwrite (overwrite buf pos xs) (pos + xs.length) ys = overwrite buf pos (xs ++ ys) := by
  have hpre : (buf.take pos ++ xs).length = pos + xs.length := by
    simp only [List.length_append, List.length_take]
    omega
  have htake : (overwrite buf pos xs).take (pos + xs.length) = buf.take pos ++ xs := by
    rw [overwrite, ← hpre, List.take_left]
  have hdrop : (overwrite buf pos xs).drop (pos + xs.length + ys.length)
      = buf.drop (pos + xs.length + ys.length) := by
    rw [overwrite, ← hpre, ← List.drop_drop, List.drop_left, hpre, List.drop_drop]
  rw [overwrite, htake, hdrop, overwrite, List.length_append, ← Nat.add_assoc]
  simp only [List.append_assoc]

/-- A second overwrite of the same place and length hides the first. -/
theorem overwrite_same (buf : Buffer) (pos : Nat) (xs ys : List UInt8)
    (hlen : xs.length = ys.length) (h : pos + xs.length ≤ buf.length) :
    overwrite (overwrite buf pos xs) pos ys = overwrite buf pos ys := by
  have hpre : (buf.take pos).length = pos := by
    rw [List.length_take]
    omega
  have htake : (overwrite buf pos xs).take pos = buf.take pos := by
    rw [overwrite, List.append_assoc]
    exact List.take_left' hpre
  have hdrop : (overwrite buf pos xs).drop (pos + xs.length) = buf.drop (pos + xs.length) := by
    rw [overwrite]
    exact List.drop_left' (by rw [List.length_append, hpre])
  rw [hlen] at hdrop
  rw [overwrite, htake, hdrop, overwrite]

/-! ## Write pointers -/

/-- A pointer into a buffer, advanced by every write. It may stand at the end
    of the buffer but never past it. -/
@[ext]
structure Cursor where
  buf : Buffer
  pos : Nat
  pos_le : pos ≤ buf.length

namespace Cursor

/-- The pointer to the first byte of a buffer. -/
def start (buf : Buffer) : Cursor := ⟨buf, 0, Nat.zero_le _⟩

/-- The bytes the caller finds in the buffer once the pointer has stopped. -/
def written (c : Cursor) (bs : List UInt8) (h : c.pos + bs.length ≤ c.buf.length) : Cursor :=
  ⟨overwrite c.buf c.pos bs, c.pos + bs.length, by rwa [length_overwrite _ _ _ h]⟩

/-- Write some bytes and advance, if they fit. -/
def puts (c : Cursor) (bs : List UInt8) : Except Fault Cursor :=
  if h : c.pos + bs.length ≤ c.buf.length then .ok (c.written bs h) else .error .writePastEnd

/-- Replace the byte before the pointer, as `*(p - 1) = b` does. -/
def patchBack (c : Cursor) (b : UInt8) : Except Fault Cursor :=
  if h : 0 < c.pos then
    .ok ⟨overwrite c.buf (c.pos - 1) [b], c.pos, by
      have hle := c.pos_le
      rw [length_overwrite _ _ _ (by simp only [List.length_singleton]; omega)]
      exact hle⟩
  else .error .writePastEnd

theorem puts_ok (c : Cursor) (bs : List UInt8) (h : c.pos + bs.length ≤ c.buf.length) :
    c.puts bs = .ok (c.written bs h) := by
  rw [puts, dif_pos h]

theorem puts_error (c : Cursor) (bs : List UInt8) (h : ¬ c.pos + bs.length ≤ c.buf.length) :
    c.puts bs = .error .writePastEnd := by
  rw [puts, dif_neg h]

/-- The buffer after a write from its start. -/
theorem written_start (buf : Buffer) (bs : List UInt8)
    (h : (start buf).pos + bs.length ≤ (start buf).buf.length) :
    ((start buf).written bs h).buf = bs ++ buf.drop bs.length := by
  simp only [written, start, overwrite, List.take_zero, List.nil_append, Nat.zero_add]

@[simp]
theorem puts_nil (c : Cursor) : c.puts [] = .ok c := by
  have hle : c.pos + ([] : List UInt8).length ≤ c.buf.length := c.pos_le
  rw [puts_ok c [] hle]
  congr 1
  ext1
  · exact overwrite_nil _ _
  · rfl

/-- Bytes can be written in two goes. -/
theorem puts_append (c : Cursor) (xs ys : List UInt8) :
    c.puts (xs ++ ys) = (c.puts xs).bind (fun d => d.puts ys) := by
  by_cases hx : c.pos + xs.length ≤ c.buf.length
  · rw [puts_ok c xs hx, Except.bind]
    -- The first write keeps the length, so the bounds of the second are those of both.
    have hlen := length_overwrite c.buf c.pos xs hx
    by_cases hxy : c.pos + (xs ++ ys).length ≤ c.buf.length
    · have hy : (c.written xs hx).pos + ys.length ≤ (c.written xs hx).buf.length := by
        simp only [written, hlen]
        rw [List.length_append] at hxy
        omega
      rw [puts_ok c _ hxy, puts_ok _ _ hy]
      congr 1
      ext1
      · exact (overwrite_append c.buf c.pos xs ys hx).symm
      · simp only [written, List.length_append]
        omega
    · have hy : ¬ (c.written xs hx).pos + ys.length ≤ (c.written xs hx).buf.length := by
        simp only [written, hlen]
        rw [List.length_append] at hxy
        omega
      rw [puts_error c _ hxy, puts_error _ _ hy]
  · -- What does not fit alone does not fit with more behind it.
    have hxy : ¬ c.pos + (xs ++ ys).length ≤ c.buf.length := by
      rw [List.length_append]
      omega
    rw [puts_error c xs hx, puts_error c _ hxy, Except.bind]

/-- Replacing the last of the bytes just written. -/
theorem puts_patchBack (c : Cursor) (xs : List UInt8) (a b : UInt8) :
    (c.puts (xs ++ [a])).bind (fun d => d.patchBack b) = c.puts (xs ++ [b]) := by
  by_cases h : c.pos + (xs ++ [a]).length ≤ c.buf.length
  · have hb : c.pos + (xs ++ [b]).length ≤ c.buf.length := by
      simpa only [List.length_append, List.length_singleton] using h
    -- There is a byte to patch, the one just written.
    have hpos : 0 < (c.written (xs ++ [a]) h).pos := by
      simp only [written, List.length_append, List.length_singleton]
      omega
    have hx : c.pos + xs.length ≤ c.buf.length := by
      rw [List.length_append] at h
      omega
    have hxlen := length_overwrite c.buf c.pos xs hx
    rw [puts_ok c _ h, puts_ok c _ hb, Except.bind, patchBack, dif_pos hpos]
    congr 1
    ext1
    · -- The patched byte sits right behind `xs`, over the byte `a`.
      have hpat : c.pos + (xs ++ [a]).length - 1 = c.pos + xs.length := by
        simp only [List.length_append, List.length_singleton]
        omega
      simp only [written]
      rw [hpat, ← overwrite_append c.buf c.pos xs [a] hx, ← overwrite_append c.buf c.pos xs [b] hx]
      have hfit : c.pos + xs.length + [a].length ≤ (overwrite c.buf c.pos xs).length := by
        simp only [List.length_append, List.length_singleton] at h ⊢
        omega
      exact overwrite_same _ _ [a] [b] rfl hfit
    · simp only [written, List.length_append, List.length_singleton]
  · have hb : ¬ c.pos + (xs ++ [b]).length ≤ c.buf.length := by
      simpa only [List.length_append, List.length_singleton] using h
    rw [puts_error c _ h, puts_error c _ hb, Except.bind]

end Cursor

/-- A loop that appends `f a` for each element `a` writes the concatenation.
    The induction is on the list, and `puts_append` carries one turn. -/
theorem foldlM_puts {α : Type} (f : α → List UInt8) (body : Cursor → α → Except Fault Cursor)
    (l : List α) (hbody : ∀ c, ∀ a ∈ l, body c a = c.puts (f a)) (c : Cursor) :
    l.foldlM body c = c.puts (l.flatMap f) := by
  induction l generalizing c with
  | nil => simp only [List.foldlM_nil, List.flatMap_nil, Cursor.puts_nil, pure, Except.pure]
  | cons a l ih =>
      have hrest : ∀ c, ∀ b ∈ l, body c b = c.puts (f b) :=
        fun c b hb => hbody c b (List.mem_cons_of_mem _ hb)
      rw [List.foldlM_cons, hbody c a List.mem_cons_self, List.flatMap_cons, Cursor.puts_append]
      simp only [bind]
      congr 1
      funext d
      exact ih hrest d

/-! ## Faults of a write -/

/-- A write that does not fit is the only fault of a write. -/
theorem Cursor.avoids_puts {e : Fault} (he : e ≠ .writePastEnd) (c : Cursor) (bs : List UInt8) :
    Avoids e (c.puts bs) := by
  by_cases h : c.pos + bs.length ≤ c.buf.length
  · rw [c.puts_ok bs h]
    exact avoids_ok _
  · rw [c.puts_error bs h]
    exact avoids_error he.symm

theorem Cursor.avoids_patchBack {e : Fault} (he : e ≠ .writePastEnd) (c : Cursor) (b : UInt8) :
    Avoids e (c.patchBack b) := by
  unfold Cursor.patchBack
  split
  · exact avoids_ok _
  · exact avoids_error he.symm

end Qdmi
