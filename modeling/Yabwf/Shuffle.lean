import Yabwf.Handlers

/-!
How much `io_shuffle` asks for.

* `Request.shuffleAsk`: the offset and the size of the `read` in one call, if there is one;
  `ioShuffle_eq`: what the call does with the answer.
* `ioShuffle_asks_iff`: it asks for what is left of the range, or for as much as it has room
  for, exactly if the number of bytes that are left is the same as an `int`, or a large one.
-/

namespace Yabwf

open Memory

/-- How many bytes `io_shuffle` has room for when its buffer is empty. -/
def shuffleRoom : ℕ := bufferSize - 256

/-- How many bytes `io_shuffle` asks for, an `int` like the number of bytes that are left. -/
def Request.bytesToRead (r : Request) : ℤ :=
  min ((bufferSize : ℤ) - r.bufferEnd - 256) (toSigned 32 r.rangeLength)

/-- The offset and the size of the `read` in `io_shuffle`, if there is one. -/
def Request.shuffleAsk (r : Request) : Option (ℕ × ℕ) :=
  if r.method ≠ .head ∧ 0 < r.bytesToRead ∧ r.dataFd ≠ 0 then
    some ((r.ranges.headD ⟨0, 0⟩).start, r.bytesToRead.toNat)
  else none

/-- `io_shuffle` with the answer to the `read` that it asks for. -/
def Conn.shuffleRead (cfg : Config) (env : Env) (start size : ℕ) (c : Conn) : ℤ × Conn :=
  if !env.lseekOk then (0, c.die)
  else
    match env.fileRead with
    | .again | .intr =>
        if c.req.bufferEnd - c.req.bufferStart = 0 then (-1, c) else ioShuffleWrite c
    | .error => (0, c.die)
    | .accept n =>
        if min n size = 0 then ioShuffleWrite c.closeData
        else if (c.shuffled (c.req.dataFile.slice start (min n size))).req.rangeLength = 0 then
          completeResponse cfg (c.shuffled (c.req.dataFile.slice start (min n size)))
        else ioShuffleWrite (c.shuffled (c.req.dataFile.slice start (min n size)))

lemma ioShuffle_of_none {cfg : Config} {env : Env} {c : Conn} (hget : c.req.method ≠ .head)
    (h : c.req.shuffleAsk = none) : ioShuffle cfg env c = ioShuffleWrite c := by
  have hnot : ¬(0 < c.req.bytesToRead ∧ c.req.dataFd ≠ 0) := by
    intro hread
    rw [Request.shuffleAsk, if_pos ⟨hget, hread⟩] at h
    cases h
  rw [ioShuffle, if_neg hget]
  exact if_neg hnot

lemma ioShuffle_of_some {cfg : Config} {env : Env} {c : Conn} {start size : ℕ}
    (h : c.req.shuffleAsk = some (start, size)) :
    ioShuffle cfg env c = c.shuffleRead cfg env start size := by
  rw [Request.shuffleAsk] at h
  by_cases hask : c.req.method ≠ .head ∧ 0 < c.req.bytesToRead ∧ c.req.dataFd ≠ 0
  · rw [if_pos hask, Option.some.injEq, Prod.mk.injEq] at h
    obtain ⟨rfl, rfl⟩ := h
    have hlen : ∀ start n, (c.req.dataFile.slice start n).length = n := fun start n =>
      Mem.length_slice _ _ _
    rw [ioShuffle, if_neg hask.1, Conn.shuffleRead]
    refine (if_pos hask.2).trans ?_
    simp only [Conn.shuffled, hlen]
    rfl
  · rw [if_neg hask] at h
    cases h

/-- One call asks for what is left of the range, or for as much as there is room for, and
returns `1` only if it has read something. -/
def ShuffleProgresses (cfg : Config) (c : Conn) : Prop :=
  0 < min c.req.rangeLength shuffleRoom ∧
    c.req.shuffleAsk
      = some ((c.req.ranges.headD ⟨0, 0⟩).start, min c.req.rangeLength shuffleRoom) ∧
    ∀ env, (ioShuffle cfg env c).1 = 1 → ∃ n, env.fileRead = .accept (n + 1)

section

variable {c : Conn}

/-- The number of bytes that are left, as an `int`. -/
lemma toSigned_eq (n : ℕ) : toSigned 32 n
    = if n % 2 ^ 32 < 2 ^ 31 then ((n % 2 ^ 32 : ℕ) : ℤ) else (n % 2 ^ 32 : ℕ) - 2 ^ 32 := rfl

/-- The lengths for which the call asks for the right number of bytes. -/
lemma bytesToRead_eq_iff (hn : 1 ≤ c.req.rangeLength) (hend : c.req.bufferEnd = 0) :
    (0 < c.req.bytesToRead ∧ c.req.bytesToRead.toNat = min c.req.rangeLength shuffleRoom) ↔
      c.req.rangeLength < 2 ^ 31 ∨
        shuffleRoom ≤ c.req.rangeLength % 2 ^ 32 ∧ c.req.rangeLength % 2 ^ 32 < 2 ^ 31 := by
  have hbytes : c.req.bytesToRead = min (shuffleRoom : ℤ) (toSigned 32 c.req.rangeLength) := by
    rw [Request.bytesToRead, hend]
    rfl
  have hroom : shuffleRoom = 3840 := rfl
  rw [hbytes, toSigned_eq, hroom]
  generalize c.req.rangeLength = n at hn ⊢
  split_ifs <;> omega

/-- What a call that reads returns on an empty buffer. -/
lemma shuffleRead_one {cfg : Config} {env : Env} {start size : ℕ} (hempty : c.req.bufferEnd = 0)
    (h : (c.shuffleRead cfg env start size).1 = 1) : ∃ n, env.fileRead = .accept (n + 1) := by
  have hnone : c.req.bufferEnd - c.req.bufferStart = 0 := by rw [hempty, Nat.zero_sub]
  rw [Conn.shuffleRead] at h
  split_ifs at h
  · cases h
  · cases hread : env.fileRead with
    | again =>
        rw [hread] at h
        cases h
    | intr =>
        rw [hread] at h
        cases h
    | error =>
        rw [hread] at h
        cases h
    | accept n =>
        cases n with
        | succ n => exact ⟨n, rfl⟩
        | zero =>
            -- at the end of the file there is nothing left to be written
            have hclosed : ioShuffleWrite c.closeData = (0, c.closeData) := by
              rw [ioShuffleWrite]
              exact (if_pos hnone).trans (if_pos rfl)
            rw [hread] at h
            dsimp only at h
            rw [if_pos (Nat.zero_min size), hclosed] at h
            cases h

/-- Without a `read`, a call with an empty buffer does nothing at all. -/
lemma ioShuffle_spins {cfg : Config} {env : Env} (hget : c.req.method ≠ .head)
    (hfd : c.req.dataFd ≠ 0) (hempty : c.req.bufferEnd = 0) (h : c.req.shuffleAsk = none) :
    ioShuffle cfg env c = (1, c.clearBuffer) := by
  have hnone : c.req.bufferEnd - c.req.bufferStart = 0 := by rw [hempty, Nat.zero_sub]
  rw [ioShuffle_of_none hget h, ioShuffleWrite]
  exact (if_pos hnone).trans (if_neg hfd)

/-- **`io_shuffle` makes progress** with an empty buffer, an open file and bytes that are left
exactly if their number is below `2 ^ 31`, or leaves a remainder on division by `2 ^ 32` that is
below `2 ^ 31` and fills the room. -/
theorem ioShuffle_asks_iff (cfg : Config) (c : Conn) (hget : c.req.method ≠ .head)
    (hn : 1 ≤ c.req.rangeLength) (hfd : c.req.dataFd ≠ 0) (hempty : c.req.bufferEnd = 0) :
    ShuffleProgresses cfg c ↔ c.req.rangeLength < 2 ^ 31 ∨
      shuffleRoom ≤ c.req.rangeLength % 2 ^ 32 ∧ c.req.rangeLength % 2 ^ 32 < 2 ^ 31 := by
  rw [← bytesToRead_eq_iff hn hempty]
  have hroom : 0 < min c.req.rangeLength shuffleRoom :=
    lt_min hn (by decide)
  constructor
  · rintro ⟨-, hask, -⟩
    rw [Request.shuffleAsk] at hask
    split_ifs at hask with hread
    rw [Option.some.injEq, Prod.mk.injEq] at hask
    exact ⟨hread.2.1, hask.2⟩
  · rintro ⟨hpos, hsize⟩
    have hask : c.req.shuffleAsk
        = some ((c.req.ranges.headD ⟨0, 0⟩).start, min c.req.rangeLength shuffleRoom) := by
      rw [Request.shuffleAsk, if_pos ⟨hget, hpos, hfd⟩, hsize]
    refine ⟨hroom, hask, fun env hret => ?_⟩
    rw [ioShuffle_of_some hask] at hret
    exact shuffleRead_one hempty hret

end

/-- A range from the start of a file, of which nothing has been sent yet. -/
def shufflingRequest (length : ℕ) : Conn where
  req := { fd := 4, method := .get, dataFd := 5, ranges := [⟨0, length - 1⟩] }

/-- With `2 ^ 31` bytes left, nothing is asked for, and the call returns `1`. -/
theorem ioShuffle_stalls :
    (shufflingRequest (2 ^ 31)).req.rangeLength = 2 ^ 31 ∧
      (ioShuffle {} {} (shufflingRequest (2 ^ 31))).1 = 1 ∧
      ¬ShuffleProgresses {} (shufflingRequest (2 ^ 31)) := by
  have hstall : (ioShuffle {} {} (shufflingRequest (2 ^ 31))).1 = 1 := by decide
  refine ⟨by decide, hstall, fun h => ?_⟩
  obtain ⟨n, hn⟩ := h.2.2 {} hstall
  cases hn

/-- With a byte less there is progress. -/
theorem ioShuffle_progresses : ShuffleProgresses {} (shufflingRequest (2 ^ 31 - 1)) :=
  (ioShuffle_asks_iff {} _ (by decide) (by decide) (by decide) rfl).mpr (Or.inl (by decide))

end Yabwf
