import Mathlib.Data.List.Induction
import Mathlib.Data.Nat.ModEq

/-! Numbers as big-endian bytes, and files that hold byte strings one after another, each
behind its length in four bytes. -/

namespace Relux

/-- The `k` low bytes of a number, the highest first. -/
def beBytes : Nat → Nat → List UInt8
  | 0, _ => []
  | k + 1, n => beBytes k (n / 256) ++ [UInt8.ofNat n]

def ofBeBytes (bytes : List UInt8) : Nat := bytes.foldl (fun n b => n * 256 + b.toNat) 0

@[simp] theorem beBytes_length (k n : Nat) : (beBytes k n).length = k := by
  induction k generalizing n with
  | zero => rfl
  | succ k ih => simp [beBytes, ih]

theorem ofBeBytes_beBytes {k n : Nat} (h : n < 256 ^ k) : ofBeBytes (beBytes k n) = n := by
  induction k generalizing n with
  | zero =>
    have hn : n = 0 := by simpa using h
    simp [beBytes, ofBeBytes, hn]
  | succ k ih =>
    have hk : n / 256 < 256 ^ k := by
      apply Nat.div_lt_of_lt_mul
      rwa [Nat.pow_succ, Nat.mul_comm] at h
    have hhigh := ih hk
    simp only [ofBeBytes] at hhigh
    simp only [beBytes, ofBeBytes, List.foldl_append, hhigh, List.foldl_cons, List.foldl_nil]
    have hlow : (UInt8.ofNat n).toNat = n % 256 := by simp
    omega

def frame (bytes : List UInt8) : List UInt8 := beBytes 4 bytes.length ++ bytes

def frames (l : List (List UInt8)) : List UInt8 := l.flatMap frame

@[simp] theorem frames_nil : frames [] = [] := rfl

@[simp] theorem frames_cons (bytes : List UInt8) (l : List (List UInt8)) :
    frames (bytes :: l) = frame bytes ++ frames l := rfl

@[simp] theorem frames_append (l m : List (List UInt8)) :
    frames (l ++ m) = frames l ++ frames m := by
  simp [frames]

theorem frame_length (bytes rest : List UInt8) :
    (frame bytes ++ rest).length = 4 + bytes.length + rest.length := by
  simp only [frame, List.length_append, beBytes_length]

theorem ofBeBytes_frame {bytes : List UInt8} (h : bytes.length < 2 ^ 32)
    (rest : List UInt8) : ofBeBytes ((frame bytes ++ rest).take 4) = bytes.length := by
  have hfour : (beBytes 4 bytes.length).length = 4 := beBytes_length 4 bytes.length
  rw [frame, List.append_assoc, List.take_left' hfour]
  apply ofBeBytes_beBytes
  omega

theorem drop_frame (bytes rest : List UInt8) :
    (frame bytes ++ rest).drop 4 = bytes ++ rest := by
  have hfour : (beBytes 4 bytes.length).length = 4 := beBytes_length 4 bytes.length
  exact List.drop_left' hfour

end Relux
