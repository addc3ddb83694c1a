import Mathlib.Data.List.Basic
import Mathlib.Tactic.Ring

/-! Messages on a byte stream: each one behind its length, in 4 bytes, or in 8 bytes behind the mark of a long
message. A reader with a limit takes whole messages only. -/

namespace KernelGym.Library

abbrev Bytes := List UInt8

/-- The `k` low bytes of a number, the highest first. -/
def bigEndian : (k n : ℕ) → Bytes
  | 0, _ => []
  | k + 1, n => bigEndian k (n / 256) ++ [UInt8.ofNat n]

def fromBigEndian (bytes : Bytes) : ℕ := bytes.foldl (fun n b => n * 256 + b.toNat) 0

/-- A message with its header, if its length can be written. -/
def frame (message : Bytes) : Option Bytes :=
  if message.length < 2 ^ 31 then some (bigEndian 4 message.length ++ message)
  else if message.length < 2 ^ 64 then
    some (bigEndian 4 (2 ^ 32 - 1) ++ bigEndian 8 message.length ++ message)
  else none

inductive FrameError
  /-- Nothing was left where a read began. -/
  | endOfFile
  | cut
  | tooLong
  deriving DecidableEq, Repr

/-- Reads `n` bytes of a stream that ends with what is given. -/
def readExact (n : ℕ) (stream : Bytes) : Except FrameError (Bytes × Bytes) :=
  if n ≤ stream.length then .ok (stream.take n, stream.drop n)
  else if stream = [] then .error .endOfFile
  else .error .cut

/-- The length that a header announces; a negative one reads as nothing. -/
def readLength (stream : Bytes) : Except FrameError (ℕ × Bytes) :=
  match readExact 4 stream with
  | .error e => .error e
  | .ok (header, rest) =>
    if fromBigEndian header = 2 ^ 32 - 1 then
      match readExact 8 rest with
      | .error e => .error e
      | .ok (long, rest) => .ok (fromBigEndian long, rest)
    else .ok (if fromBigEndian header < 2 ^ 31 then fromBigEndian header else 0, rest)

/-- Reads one message of at most `limit` bytes: the message and what follows it. -/
def readFrame (limit : ℕ) (stream : Bytes) : Except FrameError (Bytes × Bytes) :=
  match readLength stream with
  | .error e => .error e
  | .ok (length, rest) => if limit < length then .error .tooLong else readExact length rest

theorem bigEndian_length (k n : ℕ) : (bigEndian k n).length = k := by
  induction k generalizing n with
  | zero => rfl
  | succ k ih => rw [bigEndian, List.length_append, ih, List.length_singleton]

theorem fromBigEndian_bigEndian {k n : ℕ} (h : n < 256 ^ k) : fromBigEndian (bigEndian k n) = n := by
  induction k generalizing n with
  | zero =>
      rw [Nat.pow_zero] at h
      rw [Nat.lt_one_iff.1 h]
      rfl
  | succ k ih =>
      have hdiv : n / 256 < 256 ^ k := by
        rw [Nat.pow_succ, Nat.mul_comm] at h
        exact Nat.div_lt_of_lt_mul h
      have hih := ih hdiv
      unfold fromBigEndian at hih ⊢
      rw [bigEndian, List.foldl_append, hih, List.foldl_cons, List.foldl_nil]
      have hlow : (UInt8.ofNat n).toNat = n % 256 := rfl
      rw [hlow]
      omega

theorem readExact_append {n : ℕ} {a rest : Bytes} (h : a.length = n) :
    readExact n (a ++ rest) = .ok (a, rest) := by
  subst h
  rw [readExact, if_pos (by simp), List.take_left, List.drop_left]

theorem readExact_short {n : ℕ} {stream : Bytes} (h : stream.length < n) :
    ∃ e, readExact n stream = .error e := by
  rw [readExact, if_neg (by omega)]
  split
  · exact ⟨_, rfl⟩
  · exact ⟨_, rfl⟩

/-- The header of a message, and the message behind it. -/
theorem frame_eq {message framed : Bytes} (h : frame message = some framed) :
    ∃ header, framed = header ++ message ∧
      (∀ rest, readLength (header ++ rest) = .ok (message.length, rest)) ∧
      ∀ part, part.length < header.length → part <+: header → ∃ e, readLength part = .error e := by
  unfold frame at h
  split at h
  · rename_i hshort
    cases h
    refine ⟨bigEndian 4 message.length, rfl, fun rest => ?_, fun part hpart _ => ?_⟩
    · have hvalue : fromBigEndian (bigEndian 4 message.length) = message.length :=
        fromBigEndian_bigEndian (by omega)
      rw [readLength, readExact_append (bigEndian_length 4 _)]
      simp only [hvalue, if_neg (by omega : message.length ≠ 2 ^ 32 - 1), if_pos hshort]
    · rw [bigEndian_length] at hpart
      obtain ⟨e, he⟩ := readExact_short hpart
      exact ⟨e, by rw [readLength, he]⟩
  · split at h
    · rename_i hlong
      cases h
      have hmark : fromBigEndian (bigEndian 4 (2 ^ 32 - 1)) = 2 ^ 32 - 1 :=
        fromBigEndian_bigEndian (by decide)
      have hvalue : fromBigEndian (bigEndian 8 message.length) = message.length :=
        fromBigEndian_bigEndian (by omega)
      refine ⟨bigEndian 4 (2 ^ 32 - 1) ++ bigEndian 8 message.length, rfl, fun rest => ?_,
        fun part hpart hprefix => ?_⟩
      · rw [readLength, List.append_assoc, readExact_append (bigEndian_length 4 _)]
        simp only [hmark, if_true, readExact_append (bigEndian_length 8 _), hvalue]
      · rw [List.length_append, bigEndian_length, bigEndian_length] at hpart
        rw [readLength]
        by_cases hfour : part.length < 4
        · obtain ⟨e, he⟩ := readExact_short hfour
          exact ⟨e, by rw [he]⟩
        · have hhead : part = bigEndian 4 (2 ^ 32 - 1) ++ part.drop 4 := by
            obtain ⟨tail, htail⟩ := hprefix
            have htake : part.take 4 = bigEndian 4 (2 ^ 32 - 1) := by
              have hself : (bigEndian 4 (2 ^ 32 - 1)).take 4 = bigEndian 4 (2 ^ 32 - 1) :=
                List.take_of_length_le (by rw [bigEndian_length])
              have := congrArg (List.take 4) htail
              rwa [List.take_append_of_le_length (by omega),
                List.take_append_of_le_length (by rw [bigEndian_length]), hself] at this
            rw [← htake, List.take_append_drop]
          rw [hhead, readExact_append (bigEndian_length 4 _)]
          have htail : (part.drop 4).length < 8 := by
            rw [List.length_drop]
            omega
          obtain ⟨e, he⟩ := readExact_short htail
          exact ⟨e, by simp only [hmark, if_true, he]⟩
    · cases h

/-- **A message within the limit is read whole, whatever follows it.** -/
theorem readFrame_append {limit : ℕ} {message framed rest : Bytes} (h : frame message = some framed)
    (hlimit : message.length ≤ limit) : readFrame limit (framed ++ rest) = .ok (message, rest) := by
  obtain ⟨header, rfl, hlength, -⟩ := frame_eq h
  rw [readFrame, List.append_assoc, hlength]
  simp only [if_neg (Nat.not_lt.2 hlimit), readExact_append rfl]

/-- **A message that is cut short is not read.** -/
theorem readFrame_cut {limit : ℕ} {message framed part : Bytes} (h : frame message = some framed)
    (hpart : part <+: framed) (hne : part ≠ framed) : ∃ e, readFrame limit part = .error e := by
  obtain ⟨header, rfl, hlength, hheader⟩ := frame_eq h
  have hshort : part.length < (header ++ message).length :=
    Nat.lt_of_le_of_ne hpart.length_le fun heq => hne (hpart.eq_of_length heq)
  by_cases hcut : part.length < header.length
  · obtain ⟨e, he⟩ := hheader part hcut
      (List.prefix_of_prefix_length_le hpart (List.prefix_append _ _) (Nat.le_of_lt hcut))
    exact ⟨e, by rw [readFrame, he]⟩
  · obtain ⟨body, rfl⟩ := List.prefix_of_prefix_length_le (List.prefix_append header message) hpart
      (Nat.le_of_not_lt hcut)
    rw [readFrame, hlength]
    rw [List.length_append, List.length_append] at hshort
    have hbody : body.length < message.length := by omega
    obtain ⟨e, he⟩ := readExact_short hbody
    by_cases hlimit : limit < message.length
    · exact ⟨_, if_pos hlimit⟩
    · exact ⟨e, by simp only [if_neg hlimit, he]⟩

end KernelGym.Library
