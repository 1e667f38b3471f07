import Yabwf.Response

/-!
`range.c`: the ranges of a request. They are recorded by `range_parse` before the size
of the file is known, with `-1` for a side that is not given, and put right by
`ranges_fixup` afterwards. They are a list here; `RangePool` has their nodes and the pool.
-/

namespace Yabwf

/-- The states of the automaton in `range_parse`. -/
inductive RangeMode
  | initial | startnum | gap1 | gap2 | stopnum
  deriving DecidableEq, Repr

/-- The character codes. -/
inductive RangeChar
  | digit | white | comma | hyphen | null | other
  deriving DecidableEq, Repr

/-- The first action of an entry: push a digit or disable a side. -/
inductive RangePush
  | none | pushBeginning | pushEnd | disableBeginning | disableEnd
  deriving DecidableEq, Repr

/-- The second action of an entry: abort or submit. -/
inductive RangeAct
  | none | abort | submit
  deriving DecidableEq, Repr

/-- The character code of a byte. -/
def rangeChar (b : UInt8) : RangeChar :=
  if isDigit b then .digit
  else if b = 32 ∨ b = 12 ∨ b = 10 ∨ b = 13 ∨ b = 9 ∨ b = 11 then .white
  else if b = 44 then .comma
  else if b = 45 then .hyphen
  else if b = 0 then .null
  else .other

/-- The table `stable`. -/
def rangeTable : RangeMode → RangeChar → RangePush × RangeAct × RangeMode
  | .initial, .digit => (.pushBeginning, .none, .startnum)
  | .initial, .white => (.none, .none, .initial)
  | .initial, .comma => (.none, .none, .initial)
  | .initial, .hyphen => (.disableBeginning, .none, .gap2)
  | .initial, .null => (.none, .none, .initial)
  | .startnum, .digit => (.pushBeginning, .none, .startnum)
  | .startnum, .white => (.none, .none, .gap1)
  | .startnum, .hyphen => (.none, .none, .gap2)
  | .gap1, .white => (.none, .none, .gap1)
  | .gap1, .hyphen => (.none, .none, .gap2)
  | .gap2, .digit => (.pushEnd, .none, .stopnum)
  | .gap2, .white => (.none, .none, .gap2)
  | .gap2, .comma => (.disableEnd, .submit, .initial)
  | .gap2, .null => (.disableEnd, .submit, .initial)
  | .stopnum, .digit => (.pushEnd, .none, .stopnum)
  | .stopnum, .white => (.none, .submit, .initial)
  | .stopnum, .comma => (.none, .submit, .initial)
  | .stopnum, .null => (.none, .submit, .initial)
  | _, _ => (.none, .abort, .initial)

/-- `range_abort`. -/
def rangeAbort (r : Request) : Request := { r with ranges := [⟨0, ulongMax⟩] }

/-- `range_add`. -/
def rangeAdd (r : Request) (start stop : ℕ) : Request :=
  { r with ranges := r.ranges ++ [⟨start, stop⟩], numranges := r.numranges + 1 }

/-- The loop of `range_parse`; the zero that ends the string is read like any other
character. -/
def rangeLoop : Bytes → RangeMode → ℕ → ℕ → Request → Bool × Request
  | [], _, _, _, r => (true, r)
  | b :: s, mode, start, stop, r =>
      let entry := rangeTable mode (rangeChar b)
      let start :=
        match entry.1 with
        | .pushBeginning => (start * 10 + (b.toNat - 48)) % 2 ^ 64
        | .disableBeginning => ulongMax
        | _ => start
      let stop :=
        match entry.1 with
        | .pushEnd => (stop * 10 + (b.toNat - 48)) % 2 ^ 64
        | .disableEnd => ulongMax
        | _ => stop
      match entry.2.1 with
      | .abort => (false, rangeAbort r)
      | .submit =>
          if start = stop ∧ start = uintMax then (false, rangeAbort r)
          else rangeLoop s entry.2.2 0 0 (rangeAdd r start stop)
      | .none => rangeLoop s entry.2.2 start stop r

/-- `range_parse`. -/
def rangeParse (r : Request) (s : Bytes) : Bool × Request :=
  if hasPrefixCase (str "bytes=") s then rangeLoop (s.drop 6 ++ [0]) .initial 0 0 r
  else (false, r)

/-- One round of `ranges_fixup`: the range within the file, if it is valid. -/
def rangeFixup (filesize : ℕ) (range : Range) : Option Range :=
  let stop := if range.stop = uintMax ∨ filesize ≤ range.stop then filesize - 1 else range.stop
  let start := if range.start = ulongMax then filesize - stop else range.start
  let stop := if range.start = ulongMax then filesize - 1 else stop
  if 2 ^ 63 ≤ start ∨ stop < start then none else some ⟨start, stop⟩

/-- `ranges_fixup`. -/
def rangesFixup (cfg : Config) (env : Env) (c : Conn) : Bool × Conn :=
  let ranges :=
    if c.req.filesize = 0 then [] else c.req.ranges.filterMap (rangeFixup c.req.filesize)
  let c := c.upd fun r => { r with ranges := ranges }
  if ranges = [] then (false, sendRInvalidRange cfg env c) else (true, c)

example : (rangeParse { fd := 4 } (str "bytes=0-10,33-,-44")).2.ranges
    = [⟨0, 10⟩, ⟨33, ulongMax⟩, ⟨ulongMax, 44⟩] := by decide

end Yabwf
