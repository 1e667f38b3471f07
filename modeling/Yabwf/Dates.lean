import Mathlib.Data.List.DropRight
import Yabwf.Lib.Stretch
import Yabwf.Get

/-!
The dates of `util.c`.

* `gmtime`, `sscanf`: the functions of the C library, as far as the dates need them.
* `getCommonlogTime`, `rfc822TimeBuf`: the times of the logs and of the headers.
* `dateToTm`, `modifiedSince`: the date of an `If-Modified-Since` header, and its comparison
  with the time of a file.
* `gmtime_lex`: later times have later dates.
* `dateToTm_rfc822TimeBuf`: what `rfc822_time_buf` writes is read back, up to the year 2020.
* `conditional_get_iff`: exactly then, and not for the time zero, a client that sends back the
  date of a file is told that the file is unchanged, and any later file is newer.
-/

namespace Yabwf

open Memory

/-! ### The calendar -/

/-- `struct tm`, without the fields that nothing reads. -/
structure Tm where
  sec : ℤ
  min : ℤ
  hour : ℤ
  mday : ℤ
  mon : ℤ
  /-- The years since 1900. -/
  year : ℤ
  wday : ℤ
  deriving DecidableEq, Repr

/-- A leap year of the Gregorian calendar. -/
def isLeap (year : ℕ) : Bool := year % 4 == 0 && (year % 100 != 0 || year % 400 == 0)

def yearLength (year : ℕ) : ℕ := if isLeap year then 366 else 365

/-- The days of a month, with January as `0`. -/
def monthLength (leap : Bool) : ℕ → ℕ
  | 1 => if leap then 29 else 28
  | 3 | 5 | 8 | 10 => 30
  | _ => 31

/-- `gmtime`, for times from 1970 on. -/
def gmtime (t : ℕ) : Tm :=
  let days := t / 86400
  let time := t % 86400
  let y := Stretch.locate yearLength 1970 days
  let m := Stretch.locate (monthLength (isLeap y.1)) 0 y.2
  { sec := (time % 60 : ℕ)
    min := (time / 60 % 60 : ℕ)
    hour := (time / 3600 : ℕ)
    mday := (m.2 + 1 : ℕ)
    mon := (m.1 : ℕ)
    year := (y.1 : ℕ) - 1900
    wday := ((days + 4) % 7 : ℕ) }

/-! ### Writing -/

/-- `month_tab`. -/
def monthTab : Bytes := str "Jan Feb Mar Apr May Jun Jul Aug Sep Oct Nov Dec "

/-- `day_tab`. -/
def dayTab : Bytes := str "Sun,Mon,Tue,Wed,Thu,Fri,Sat,"

/-- `wday_tab`. -/
def wdayTab : List Bytes :=
  [str "Sun", str "Mon", str "Tue", str "Wed", str "Thu", str "Fri", str "Sat"]

/-- `%2d` and `%4d` of `printf`, with blanks or zeroes in front. -/
def padded (pad : UInt8) (w : ℕ) (i : ℤ) : Bytes :=
  List.replicate (w - (decimal i).length) pad ++ decimal i

/-- An escape sequence for a terminal, if `get_commonlog_time` writes in colours. -/
def colorCode (color : Bool) (code : String) : Bytes := if color then 27 :: str code else []

/-- `get_commonlog_time` at the time `lc`, in colours if `ENABLE_LOG_COLOR` is defined and the
error log is a terminal. -/
def getCommonlogTime (color : Bool) (lc : Tm) : Bytes :=
  str "[" ++ colorCode color "[36m"
    ++ padded 32 4 (lc.year + 1900) ++ str "-" ++ padded 48 2 (lc.mon + 1) ++ str "-"
    ++ padded 48 2 lc.mday ++ str " " ++ colorCode color "[32m"
    ++ padded 48 2 lc.hour ++ str ":" ++ padded 48 2 lc.min ++ str ":" ++ padded 48 2 lc.sec
    ++ str " " ++ colorCode color "[34m" ++ wdayTab.getD lc.wday.toNat []
    ++ colorCode color "[0m" ++ str "] "

/-- Two digits in front of what is there. -/
def putTwo (a : ℕ) (p : Bytes) : Bytes :=
  UInt8.ofNat (48 + a / 10) :: UInt8.ofNat (48 + a % 10) :: p

/-- The loop of `rfc822_time_buf` over the digits of the year. -/
def yearLoop : ℕ → ℕ → Bytes → Bytes
  | 0, _, p => p
  | fuel + 1, a, p => if a = 0 then p else yearLoop fuel (a / 10) (UInt8.ofNat (48 + a % 10) :: p)

/-- `rfc822_time_buf`, which fills the buffer from its end, at the time `now`. -/
def rfc822TimeBuf (now s : ℕ) : Bytes :=
  let t := gmtime (if s = 0 then now else s)
  str " GMT"
    |> putTwo t.sec.toNat |> (58 :: ·)
    |> putTwo t.min.toNat |> (58 :: ·)
    |> putTwo t.hour.toNat |> (32 :: ·)
    |> yearLoop 10 (1900 + t.year).toNat
    |> ((monthTab.drop (4 * t.mon.toNat)).take 4 ++ ·) |> (32 :: ·)
    |> putTwo t.mday.toNat |> (32 :: ·)
    |> ((dayTab.drop (t.wday.toNat * 4)).take 4 ++ ·)

/-! ### Reading -/

/-- A directive of `sscanf`: `%d`, `%ws`, white space, or a character. -/
inductive Conversion
  | int
  | word (w : ℕ)
  | space
  | lit (b : UInt8)

/-- What `sscanf` assigns. -/
inductive Scanned
  | int (i : ℤ)
  | word (s : Bytes)
  deriving DecidableEq

/-- `%d`: white space, a sign and digits; the number saturates in a `long` and is then cut to
an `int`. The rest of the input follows. -/
def scanInt (s : Bytes) : Option (ℤ × Bytes) :=
  let s₁ := s.dropWhile isSpace
  let neg := s₁.head? == some 45
  let s₂ := if neg || s₁.head? == some 43 then s₁.drop 1 else s₁
  if (s₂.takeWhile isDigit).isEmpty then none
  else
    let n := leadingNumber s₂
    let v : ℤ := if neg then -(min n (2 ^ 63) : ℕ) else (min n (2 ^ 63 - 1) : ℕ)
    some (toSigned 32 (v % 2 ^ 32).toNat, s₂.dropWhile isDigit)

/-- `sscanf`: what has been assigned when the format or the input ends. -/
def sscanf : List Conversion → Bytes → List Scanned
  | [], _ => []
  | .int :: fmt, s =>
      match scanInt s with
      | none => []
      | some (i, s) => .int i :: sscanf fmt s
  | .word w :: fmt, s =>
      let s := s.dropWhile isSpace
      let word := (s.take w).takeWhile fun b => !isSpace b
      if word = [] then [] else .word word :: sscanf fmt (s.drop word.length)
  | .space :: fmt, s => sscanf fmt (s.dropWhile isSpace)
  | .lit b :: fmt, s => if s.head? = some b then sscanf fmt (s.drop 1) else []

/-- `%d:%d:%d`. -/
def clockFormat : List Conversion := [.int, .lit 58, .int, .lit 58, .int]

/-- ` GMT`. -/
def gmtFormat : List Conversion := [.space, .lit 71, .lit 77, .lit 84]

/-- `%d %3s %d %d:%d:%d GMT`. -/
def rfc1123Format : List Conversion :=
  [.int, .space, .word 3, .space, .int, .space] ++ clockFormat ++ gmtFormat

/-- `%d-%3s-%d %d:%d:%d GMT`. -/
def rfc1036Format : List Conversion :=
  [.int, .lit 45, .word 3, .lit 45, .int, .space] ++ clockFormat ++ gmtFormat

/-- `%3s %d %d:%d:%d %d`. -/
def asctimeFormat : List Conversion :=
  [.word 3, .space, .int, .space] ++ clockFormat ++ [.space, .int]

/-- `%d %10s %d %d:%d:%d GMT`. -/
def nonStandardFormat : List Conversion :=
  [.int, .space, .word 10, .space, .int, .space] ++ clockFormat ++ gmtFormat

/-- The local variables of `date_to_tm`. -/
structure ScannedDate where
  day : ℤ
  monthname : Bytes
  year : ℤ
  hour : ℤ
  minute : ℤ
  second : ℤ

/-- Six assignments, with the day first. -/
def dayFirst : List Scanned → Option ScannedDate
  | [.int day, .word monthname, .int year, .int hour, .int minute, .int second] =>
      some ⟨day, monthname, year, hour, minute, second⟩
  | _ => none

/-- Six assignments, with the month first and the year last. -/
def monthFirst : List Scanned → Option ScannedDate
  | [.word monthname, .int day, .int hour, .int minute, .int second, .int year] =>
      some ⟨day, monthname, year, hour, minute, second⟩
  | _ => none

/-- `month2int`. Behind the end of a name it finds a zero. -/
def month2int (monthname : Bytes) : ℤ :=
  match monthname.getD 0 0 with
  | 65 => if monthname.getD 1 0 = 112 then 3 else 7
  | 68 => 11
  | 70 => 1
  | 74 =>
      if monthname.getD 1 0 = 97 then 0
      else if monthname.getD 2 0 = 110 then 5
      else 6
  | 77 => if monthname.getD 2 0 = 114 then 2 else 4
  | 78 => 10
  | 79 => 9
  | 83 => 8
  | _ => -1

/-- `date_to_tm` behind `sscanf`. -/
def checkDate (d : ScannedDate) : Option Tm :=
  let year := if d.year < 70 then d.year + 100 else d.year
  let year := if 1900 < year then year - 1900 else year
  let tm : Tm :=
    { sec := d.second, min := d.minute, hour := d.hour, mday := d.day
      mon := month2int d.monthname, year := year, wday := 0 }
  if tm.mon = -1 then none
  else if tm.sec < 0 ∨ 59 < tm.sec then none
  else if tm.min < 0 ∨ 59 < tm.min then none
  else if tm.hour < 0 ∨ 23 < tm.hour then none
  else if tm.mday < 1 ∨ 31 < tm.mday then none
  else if tm.mon < 0 ∨ 11 < tm.mon then none
  else if tm.year < 70 ∨ 120 < tm.year then none
  else some tm

/-- `date_to_tm`; `none` is an error. -/
def dateToTm (cmtime : Bytes) : Option Tm :=
  -- the weekday is skipped
  let rest := cmtime.dropWhile (· != 32)
  if rest = [] then none
  else
    match dayFirst (sscanf rfc1123Format rest) with
    | some d => checkDate d
    | none =>
        match dayFirst (sscanf rfc1036Format rest) with
        | some d => checkDate d
        | none =>
            match monthFirst (sscanf asctimeFormat rest) with
            | some d => checkDate d
            | none =>
                match dayFirst (sscanf nonStandardFormat cmtime) with
                | some d => checkDate d
                | none => none

/-- The comparisons of `modified_since`, up to the first field that differs. -/
def compareFields : List ℤ → List ℤ → ℤ
  | f :: fs, p :: ps =>
      if f - p ≠ 0 then if 0 < f - p then 1 else 0 else compareFields fs ps
  | _, _ => 0

/-- The fields that `modified_since` compares, in its order. -/
def Tm.fields (t : Tm) : List ℤ := [t.year, t.mon, t.mday, t.hour, t.min, t.sec]

/-- `modified_since`. -/
def modifiedSince (mtime : ℕ) (since : Bytes) : ℤ :=
  match dateToTm since with
  | none => -1
  | some tm => compareFields (gmtime mtime).fields tm.fields

/-! ### The dates of two times -/

lemma yearLength_pos (year : ℕ) : 0 < yearLength year := by
  rw [yearLength]
  split_ifs <;> norm_num

lemma monthLength_bounds (leap : Bool) (m : ℕ) :
    0 < monthLength leap m ∧ monthLength leap m ≤ 31 := by
  rw [monthLength.eq_def]
  split
  · split_ifs <;> norm_num
  all_goals norm_num

/-- The months make up the year. -/
lemma sum_monthLength (year : ℕ) :
    ∑ j ∈ Finset.Ico 0 12, monthLength (isLeap year) j = yearLength year := by
  rw [yearLength]
  cases isLeap year <;> rfl

/-- The year of a day, and its place in the year. -/
lemma year_falls (days : ℕ) :
    Stretch.Falls yearLength 1970 days (Stretch.locate yearLength 1970 days) :=
  Stretch.locate_falls yearLength_pos 1970 days

/-- The month of a day of the year, and its place in the month. -/
lemma month_falls (leap : Bool) (yday : ℕ) :
    Stretch.Falls (monthLength leap) 0 yday (Stretch.locate (monthLength leap) 0 yday) :=
  Stretch.locate_falls (fun m => (monthLength_bounds leap m).1) 0 yday

/-- The fields of a date are natural numbers within their bounds. -/
structure Tm.Proper (t : Tm) (sec min hour mday mon year wday : ℕ) : Prop where
  eq : t = ⟨sec, min, hour, mday, mon, (year : ℤ) - 1900, wday⟩
  sec_lt : sec < 60
  min_lt : min < 60
  hour_lt : hour < 24
  mday_pos : 0 < mday
  mday_le : mday ≤ 31
  mon_lt : mon < 12
  year_le : 1970 ≤ year
  wday_lt : wday < 7

lemma gmtime_proper (t : ℕ) :
    ∃ sec min hour mday mon year wday, (gmtime t).Proper sec min hour mday mon year wday := by
  have hy := year_falls (t / 86400)
  rw [gmtime]
  generalize Stretch.locate yearLength 1970 (t / 86400) = y at hy ⊢
  have hm := month_falls (isLeap y.1) y.2
  generalize Stretch.locate (monthLength (isLeap y.1)) 0 y.2 = m at hm ⊢
  have hlast : m.2 < 31 := hm.lt.trans_le (monthLength_bounds _ _).2
  have hmon : m.1 < 12 := hm.fst_lt (hy.lt.trans_eq (sum_monthLength y.1).symm)
  exact ⟨_, _, _, _, _, _, _, rfl, by omega, by omega, by omega, by omega, by omega, hmon, hy.le,
    by omega⟩

lemma compareFields_self (fs : List ℤ) : compareFields fs fs = 0 := by
  induction fs with
  | nil => rfl
  | cons f fs ih => simp [compareFields, ih]

lemma compareFields_of_lt {f p : ℤ} (h : p < f) (fs ps : List ℤ) :
    compareFields (f :: fs) (p :: ps) = 1 := by
  have hpos : 0 < f - p := by omega
  rw [compareFields, if_pos hpos.ne', if_pos hpos]

lemma compareFields_cons_self (f : ℤ) (fs ps : List ℤ) :
    compareFields (f :: fs) (f :: ps) = compareFields fs ps := by simp [compareFields]

/-- Within a day, a later time has the larger clock. -/
lemma clock_lex {s t : ℕ} (h : s < t) :
    compareFields [(t / 3600 : ℕ), (t / 60 % 60 : ℕ), (t % 60 : ℕ)]
      [(s / 3600 : ℕ), (s / 60 % 60 : ℕ), (s % 60 : ℕ)] = 1 := by
  rcases (Nat.div_le_div_right h.le : s / 3600 ≤ t / 3600).lt_or_eq with hlt | heq
  · exact compareFields_of_lt (by exact_mod_cast hlt) _ _
  rw [heq, compareFields_cons_self]
  rcases lt_or_ge (s / 60 % 60) (t / 60 % 60) with hlt | hle
  · exact compareFields_of_lt (by exact_mod_cast hlt) _ _
  have heq' : s / 60 % 60 = t / 60 % 60 := by omega
  rw [heq', compareFields_cons_self]
  exact compareFields_of_lt (by omega) _ _

/-- **Later times have later dates**: the first field in which two dates differ is larger in
the later one. -/
lemma gmtime_lex {s t : ℕ} (h : s < t) :
    compareFields (gmtime t).fields (gmtime s).fields = 1 := by
  rcases (Nat.div_le_div_right h.le : s / 86400 ≤ t / 86400).lt_or_eq with hday | hday
  · rcases (year_falls _).lex (year_falls _) hday with hyear | ⟨hyear, hyday⟩
    · exact compareFields_of_lt (by simp only [gmtime]; omega) _ _
    · have hfield : (gmtime s).year = (gmtime t).year := by simp only [gmtime, hyear]
      rw [Tm.fields, Tm.fields, hfield, compareFields_cons_self]
      have hm := month_falls (isLeap (Stretch.locate yearLength 1970 (s / 86400)).1)
        (Stretch.locate yearLength 1970 (s / 86400)).2
      rw [hyear] at hm
      rcases hm.lex (month_falls _ _) hyday with hmon | ⟨hmon, hmday⟩
      · exact compareFields_of_lt (by simp only [gmtime, hyear]; omega) _ _
      · have hfield : (gmtime s).mon = (gmtime t).mon := by simp only [gmtime, hyear, hmon]
        rw [hfield, compareFields_cons_self]
        exact compareFields_of_lt (by simp only [gmtime, hyear]; omega) _ _
  · have hsame : (gmtime s).year = (gmtime t).year ∧ (gmtime s).mon = (gmtime t).mon ∧
        (gmtime s).mday = (gmtime t).mday := by simp only [gmtime, hday, and_self]
    rw [Tm.fields, Tm.fields, hsame.1, hsame.2.1, hsame.2.2, compareFields_cons_self,
      compareFields_cons_self, compareFields_cons_self]
    exact clock_lex (by omega : s % 86400 < t % 86400)

/-! ### Reading a date back -/

/-- Digits, first one first, as characters. -/
def digits (ds : List ℕ) : Bytes := ds.map fun d => UInt8.ofNat (48 + d)

lemma digit_toNat {d : ℕ} (h : d < 10) : (UInt8.ofNat (48 + d)).toNat = 48 + d := by
  rw [UInt8.toNat_ofNat']
  omega

lemma isDigit_digit {d : ℕ} (h : d < 10) : isDigit (UInt8.ofNat (48 + d)) = true := by
  simp only [isDigit, Bool.and_eq_true, decide_eq_true_eq, UInt8.le_iff_toNat_le, digit_toNat h,
    UInt8.reduceToNat]
  omega

lemma isDigit_mem_digits {ds : List ℕ} (hds : ∀ d ∈ ds, d < 10) :
    ∀ b ∈ digits ds, isDigit b = true := by
  intro b hb
  obtain ⟨d, hd, rfl⟩ := List.mem_map.mp hb
  exact isDigit_digit (hds d hd)

/-- A digit is no white space and no sign. -/
lemma not_sign_of_isDigit :
    ∀ b : UInt8, isDigit b = true → isSpace b = false ∧ b ≠ 45 ∧ b ≠ 43 :=
  forall_byte (by decide +kernel)

/-- The number that digits stand for. -/
def digitsNumber (ds : List ℕ) : ℕ := ds.foldl (fun n d => 10 * n + d) 0

lemma takeWhile_digits {ds : List ℕ} (hds : ∀ d ∈ ds, d < 10) {rest : Bytes}
    (hrest : ∀ b ∈ rest.head?, isDigit b = false) :
    (digits ds ++ rest).takeWhile isDigit = digits ds ∧
      (digits ds ++ rest).dropWhile isDigit = rest := by
  have hall := isDigit_mem_digits hds
  have hstop : rest.takeWhile isDigit = [] ∧ rest.dropWhile isDigit = rest := by
    cases rest with
    | nil => exact ⟨rfl, rfl⟩
    | cons b rest => simp [hrest b rfl]
  rw [List.takeWhile_append_of_pos hall, List.dropWhile_append_of_pos hall, hstop.1, hstop.2,
    List.append_nil]
  exact ⟨rfl, rfl⟩

lemma leadingNumber_digits {ds : List ℕ} (hds : ∀ d ∈ ds, d < 10) {rest : Bytes}
    (hrest : ∀ b ∈ rest.head?, isDigit b = false) :
    leadingNumber (digits ds ++ rest) = digitsNumber ds := by
  rw [leadingNumber, (takeWhile_digits hds hrest).1, digits, List.foldl_map, digitsNumber]
  refine List.foldl_ext _ _ _ fun n d hd => ?_
  rw [digit_toNat (hds d hd), Nat.add_sub_cancel_left]

/-- `%d` reads digits that fit an `int`, up to the next character. -/
lemma scanInt_digits (ds : List ℕ) (hds : ∀ d ∈ ds, d < 10) (hne : ds ≠ [])
    (hfit : digitsNumber ds < 2 ^ 31) {rest : Bytes} (hrest : ∀ b ∈ rest.head?, isDigit b = false) :
    scanInt (digits ds ++ rest) = some ((digitsNumber ds : ℤ), rest) := by
  have htake := takeWhile_digits hds hrest
  have hnum := leadingNumber_digits hds hrest
  obtain ⟨d, ds, rfl⟩ := List.exists_cons_of_ne_nil hne
  have hfirst := not_sign_of_isDigit _ (isDigit_digit (hds d (List.mem_cons_self ..)))
  have hcons : digits (d :: ds) ++ rest = UInt8.ofNat (48 + d) :: (digits ds ++ rest) := rfl
  have hskip : (digits (d :: ds) ++ rest).dropWhile isSpace = digits (d :: ds) ++ rest := by
    rw [hcons, List.dropWhile_cons_of_neg (Bool.eq_false_iff.mp hfirst.1)]
  have hhead : (digits (d :: ds) ++ rest).head? = some (UInt8.ofNat (48 + d)) := rfl
  have hnotempty : (digits (d :: ds)).isEmpty = false := rfl
  simp only [scanInt, hskip, hhead, Option.some_beq_some, beq_eq_false_iff_ne.mpr hfirst.2.1,
    beq_eq_false_iff_ne.mpr hfirst.2.2, Bool.or_false, Bool.false_eq_true, if_false, htake.1,
    htake.2, hnotempty, hnum]
  have hmin : min (digitsNumber (d :: ds)) (2 ^ 63 - 1) = digitsNumber (d :: ds) := by omega
  rw [hmin, toSigned]
  congr 2
  split_ifs <;> omega

lemma scanInt_blank (s : Bytes) : scanInt (32 :: s) = scanInt s := rfl

lemma putTwo_eq (a : ℕ) (p : Bytes) : putTwo a p = digits [a / 10, a % 10] ++ p := rfl

/-- `%d` reads two digits. -/
lemma scanInt_putTwo {a : ℕ} (h : a < 100) {p : Bytes} (hp : ∀ b ∈ p.head?, isDigit b = false) :
    scanInt (putTwo a p) = some ((a : ℤ), p) := by
  have hvalue : digitsNumber [a / 10, a % 10] = a := by
    simp only [digitsNumber, List.foldl_cons, List.foldl_nil]
    omega
  have hscan := scanInt_digits [a / 10, a % 10] (by simp; omega) (by simp)
    (by rw [hvalue]; omega) hp
  rwa [hvalue] at hscan

/-- A year of four digits. -/
lemma yearLoop_eq {y : ℕ} (h : 1000 ≤ y) (h' : y ≤ 9999) (p : Bytes) :
    yearLoop 10 y p
      = digits [y / 10 / 10 / 10 % 10, y / 10 / 10 % 10, y / 10 % 10, y % 10] ++ p := by
  have h₀ : y ≠ 0 := by omega
  have h₁ : y / 10 ≠ 0 := by omega
  have h₂ : y / 10 / 10 ≠ 0 := by omega
  have h₃ : y / 10 / 10 / 10 ≠ 0 := by omega
  have h₄ : y / 10 / 10 / 10 / 10 = 0 := by omega
  rw [yearLoop, if_neg h₀, yearLoop, if_neg h₁, yearLoop, if_neg h₂, yearLoop, if_neg h₃, yearLoop,
    if_pos h₄]
  rfl

lemma scanInt_yearLoop {y : ℕ} (h : 1000 ≤ y) (h' : y ≤ 9999) {p : Bytes}
    (hp : ∀ b ∈ p.head?, isDigit b = false) : scanInt (yearLoop 10 y p) = some ((y : ℤ), p) := by
  have hvalue :
      digitsNumber [y / 10 / 10 / 10 % 10, y / 10 / 10 % 10, y / 10 % 10, y % 10] = y := by
    simp only [digitsNumber, List.foldl_cons, List.foldl_nil]
    omega
  rw [yearLoop_eq h h']
  have hscan := scanInt_digits [y / 10 / 10 / 10 % 10, y / 10 / 10 % 10, y / 10 % 10, y % 10]
    (by simp; omega) (by simp) (by rw [hvalue]; omega) hp
  rwa [hvalue] at hscan

section

variable {fmt : List Conversion} {s rest : Bytes} {i : ℤ}

lemma sscanf_int (h : scanInt s = some (i, rest)) :
    sscanf (.int :: fmt) s = .int i :: sscanf fmt rest := by rw [sscanf, h]

/-- White space in front of a number is skipped anyway. -/
lemma sscanf_space_int : sscanf (.space :: .int :: fmt) s = sscanf (.int :: fmt) s := by
  have hskip : scanInt (s.dropWhile isSpace) = scanInt s := by
    simp only [scanInt, List.dropWhile_idempotent isSpace s]
  rw [sscanf, sscanf, sscanf, hskip]

lemma sscanf_blank_int : sscanf (.int :: fmt) (32 :: s) = sscanf (.int :: fmt) s := by
  rw [sscanf, sscanf, scanInt_blank]

/-- `%3s` reads a name of three letters. -/
lemma sscanf_word {name : Bytes} (hlen : name.length = 3) (hname : ∀ b ∈ name, isSpace b = false) :
    sscanf (.space :: .word 3 :: fmt) (32 :: (name ++ rest)) = .word name :: sscanf fmt rest := by
  have hne : name ≠ [] := by
    rintro rfl
    cases hlen
  have hskip : ∀ p : Bytes, (name ++ p).dropWhile isSpace = name ++ p := by
    intro p
    obtain ⟨b, name, rfl⟩ := List.exists_cons_of_ne_nil hne
    exact List.dropWhile_cons_of_neg (Bool.eq_false_iff.mp (hname b (List.mem_cons_self ..)))
  have hblank : (32 :: (name ++ rest)).dropWhile isSpace = name ++ rest :=
    (List.dropWhile_cons_of_pos rfl).trans (hskip rest)
  have hword : ((name ++ rest).take 3).takeWhile (fun b => !isSpace b) = name := by
    rw [← hlen, List.take_left, List.takeWhile_eq_self_iff]
    intro b hb
    rw [hname b hb]
    rfl
  rw [sscanf, sscanf, hblank, hskip, hword, if_neg hne, List.drop_left]

lemma sscanf_lit (b : UInt8) : sscanf (.lit b :: fmt) (b :: s) = sscanf fmt s := by
  rw [sscanf, if_pos List.head?_cons, List.drop_one, List.tail_cons]

/-- What stands behind the last number decides nothing. -/
lemma sscanf_gmtFormat (s : Bytes) : sscanf gmtFormat s = [] := by
  simp [gmtFormat, sscanf]

/-- A clock is read back. -/
lemma sscanf_clock (fmt : List Conversion) {hour min sec : ℕ} (hhour : hour < 24)
    (hmin : min < 60) (hsec : sec < 60) (hrest : ∀ b ∈ rest.head?, isDigit b = false) :
    sscanf (clockFormat ++ fmt) (putTwo hour (58 :: putTwo min (58 :: putTwo sec rest)))
      = .int hour :: .int min :: .int sec :: sscanf fmt rest := by
  have hcolon (p : Bytes) : ∀ b ∈ (58 :: p).head?, isDigit b = false := by simp [isDigit]
  calc sscanf (clockFormat ++ fmt) (putTwo hour (58 :: putTwo min (58 :: putTwo sec rest)))
      = .int hour :: sscanf (.lit 58 :: .int :: .lit 58 :: .int :: fmt)
          (58 :: putTwo min (58 :: putTwo sec rest)) :=
        sscanf_int (scanInt_putTwo (by omega) (hcolon _))
    _ = .int hour :: .int min :: sscanf (.lit 58 :: .int :: fmt) (58 :: putTwo sec rest) := by
        rw [sscanf_lit, sscanf_int (scanInt_putTwo (by omega) (hcolon _))]
    _ = .int hour :: .int min :: .int sec :: sscanf fmt rest := by
        rw [sscanf_lit, sscanf_int (scanInt_putTwo (by omega) hrest)]

end

/-- The name of a month, as `rfc822_time_buf` copies it, is read back. -/
lemma month_name {mon : ℕ} (h : mon < 12) :
    ∃ name : Bytes, (monthTab.drop (4 * mon)).take 4 = name ++ [32] ∧ name.length = 3 ∧
      (∀ b ∈ name, isSpace b = false) ∧ month2int name = mon := by
  have hall : ∀ m : Fin 12, (monthTab.drop (4 * m)).take 4
        = (monthTab.drop (4 * m)).take 3 ++ [32] ∧ ((monthTab.drop (4 * m)).take 3).length = 3 ∧
      (∀ b ∈ (monthTab.drop (4 * m)).take 3, isSpace b = false) ∧
        month2int ((monthTab.drop (4 * m)).take 3) = (m : ℕ) := by
    decide +kernel
  exact ⟨_, hall ⟨mon, h⟩⟩

/-- The name of a day is one word of four letters, with its comma. -/
lemma day_name {wday : ℕ} (h : wday < 7) :
    ((dayTab.drop (wday * 4)).take 4).length = 4 ∧
      ∀ b ∈ (dayTab.drop (wday * 4)).take 4, (b != 32) = true := by
  have hall : ∀ d : Fin 7, ((dayTab.drop (d * 4)).take 4).length = 4 ∧
      ∀ b ∈ (dayTab.drop (d * 4)).take 4, (b != 32) = true := by
    decide +kernel
  exact hall ⟨wday, h⟩

/-- The text of a date. -/
def dateText (dayName name : Bytes) (sec min hour mday year : ℕ) : Bytes :=
  dayName ++ 32 :: putTwo mday (32 :: (name ++ 32 :: yearLoop 10 year (32 ::
    putTwo hour (58 :: putTwo min (58 :: putTwo sec (str " GMT"))))))

lemma length_dateText {dayName name : Bytes} (hday : dayName.length = 4) (hname : name.length = 3)
    {year : ℕ} (h : 1000 ≤ year) (h' : year ≤ 9999) (sec min hour mday : ℕ) :
    (dateText dayName name sec min hour mday year).length = 29 := by
  rw [dateText, yearLoop_eq h h']
  simp [putTwo, digits, hday, hname, str]

/-- The first format reads all dates of that form, except for the name of the day. -/
lemma sscanf_dateText {name : Bytes} {sec min hour mday year : ℕ} (hlen : name.length = 3)
    (hname : ∀ b ∈ name, isSpace b = false) (hsec : sec < 60) (hmin : min < 60)
    (hhour : hour < 24) (hmday : mday ≤ 31) (h : 1000 ≤ year) (h' : year ≤ 9999) :
    dayFirst (sscanf rfc1123Format (dateText [] name sec min hour mday year))
      = some ⟨mday, name, year, hour, min, sec⟩ := by
  have hblank (p : Bytes) : ∀ b ∈ (32 :: p).head?, isDigit b = false := by simp [isDigit]
  have hscan : sscanf rfc1123Format (dateText [] name sec min hour mday year)
      = [.int mday, .word name, .int year, .int hour, .int min, .int sec] := by
    rw [rfc1123Format, dateText, List.nil_append]
    simp only [List.cons_append, List.nil_append]
    rw [sscanf_blank_int, sscanf_int (scanInt_putTwo (by omega) (hblank _)),
      sscanf_word hlen hname, sscanf_space_int, sscanf_blank_int,
      sscanf_int (scanInt_yearLoop h h' (hblank _)), clockFormat, List.cons_append,
      sscanf_space_int, sscanf_blank_int]
    have hclock := sscanf_clock gmtFormat hhour hmin hsec (hblank (str "GMT"))
    rw [clockFormat, List.cons_append, sscanf_gmtFormat] at hclock
    exact congrArg (fun l => Scanned.int mday :: .word name :: .int year :: l) hclock
  rw [hscan]
  rfl

/-- The last year that `date_to_tm` accepts is 2020. -/
lemma checkDate_eq {t : Tm} {name : Bytes} {sec min hour mday mon year wday : ℕ}
    (h : t.Proper sec min hour mday mon year wday) (hname : month2int name = mon) :
    checkDate ⟨mday, name, year, hour, min, sec⟩
      = if t.year ≤ 120 then some { t with wday := 0 } else none := by
  have hle := h.year_le
  have hyear : t.year = (year : ℤ) - 1900 := by rw [h.eq]
  have hmon : (mon : ℤ) ≠ -1 := by omega
  rw [checkDate]
  dsimp only
  rw [if_neg (by omega : ¬(year : ℤ) < 70), if_pos (by omega : (1900 : ℤ) < year), hname,
    if_neg hmon, if_neg (by have := h.sec_lt; omega), if_neg (by have := h.min_lt; omega),
    if_neg (by have := h.hour_lt; omega),
    if_neg (by have := h.mday_pos; have := h.mday_le; omega),
    if_neg (by have := h.mon_lt; omega), hyear]
  by_cases hlast : (year : ℤ) - 1900 ≤ 120
  · rw [if_pos hlast, if_neg (by dsimp only; omega), h.eq]
  · rw [if_neg hlast, if_pos (by dsimp only; omega)]

/-- What `rfc822_time_buf` writes for a date of its form. -/
lemma rfc822TimeBuf_eq {now s sec min hour mday mon year wday : ℕ}
    (h : (gmtime (if s = 0 then now else s)).Proper sec min hour mday mon year wday) {name : Bytes}
    (hname : (monthTab.drop (4 * mon)).take 4 = name ++ [32]) :
    rfc822TimeBuf now s
      = dateText ((dayTab.drop (wday * 4)).take 4) name sec min hour mday year := by
  have hyear : (1900 + ((year : ℤ) - 1900)).toNat = year := by omega
  rw [rfc822TimeBuf, h.eq]
  dsimp only
  rw [Int.toNat_natCast, Int.toNat_natCast, Int.toNat_natCast, Int.toNat_natCast,
    Int.toNat_natCast, Int.toNat_natCast, hyear, hname, List.append_assoc, dateText]
  rfl

/-- **Up to the year 2020, the date that `rfc822_time_buf` writes is read back**, and later
dates are refused. -/
theorem dateToTm_rfc822TimeBuf {now s : ℕ}
    (hspan : (gmtime (if s = 0 then now else s)).year ≤ 8099) :
    dateToTm (rfc822TimeBuf now s)
      = if (gmtime (if s = 0 then now else s)).year ≤ 120 then
          some { gmtime (if s = 0 then now else s) with wday := 0 } else none := by
  obtain ⟨sec, min, hour, mday, mon, year, wday, h⟩ := gmtime_proper (if s = 0 then now else s)
  obtain ⟨name, htab, hlen, hspace, hname⟩ := month_name h.mon_lt
  obtain ⟨-, hday⟩ := day_name h.wday_lt
  have hle := h.year_le
  have hfour : year ≤ 9999 := by
    rw [h.eq] at hspan
    dsimp only at hspan
    omega
  have hskip : (dateText ((dayTab.drop (wday * 4)).take 4) name sec min hour mday year).dropWhile
      (· != 32) = dateText [] name sec min hour mday year := by
    rw [dateText, List.dropWhile_append_of_pos hday]
    exact List.dropWhile_cons_of_neg (by decide)
  rw [rfc822TimeBuf_eq h htab, dateToTm, hskip]
  dsimp only
  rw [if_neg (show dateText [] name sec min hour mday year ≠ [] from List.cons_ne_nil _ _),
    sscanf_dateText hlen hspace h.sec_lt h.min_lt h.hour_lt h.mday_le (by omega) hfour]
  exact checkDate_eq h hname

/-- The date of a header is exactly 29 characters long. -/
lemma length_rfc822TimeBuf {now s : ℕ}
    (hspan : (gmtime (if s = 0 then now else s)).year ≤ 8099) :
    (rfc822TimeBuf now s).length = 29 := by
  obtain ⟨sec, min, hour, mday, mon, year, wday, h⟩ := gmtime_proper (if s = 0 then now else s)
  obtain ⟨name, htab, hlen, -, -⟩ := month_name h.mon_lt
  have hle := h.year_le
  rw [h.eq] at hspan
  dsimp only at hspan
  rw [rfc822TimeBuf_eq h htab]
  exact length_dateText (day_name h.wday_lt).1 hlen (by omega) (by omega) _ _ _ _

/-! ### The round trip -/

/-- A time of the years 1970 to 9999. -/
def InSpan (t : ℕ) : Prop := (gmtime t).year ≤ 8099

instance (t : ℕ) : Decidable (InSpan t) := inferInstanceAs (Decidable ((gmtime t).year ≤ 8099))

/-- The answer to a client that sends back the date `v` of a file: unchanged for the time that
the date was written for, and changed for all later ones. -/
def TellsChanges (t : ℕ) (v : Bytes) : Prop :=
  modifiedSince t v = 0 ∧ ∀ t₂, t < t₂ → InSpan t₂ → modifiedSince t₂ v = 1

lemma fields_wday (t : Tm) : Tm.fields { t with wday := 0 } = t.fields := rfl

/-- The comparison with a date that is read back. -/
lemma modifiedSince_of_eq {t t' : ℕ} {v : Bytes}
    (h : dateToTm v = some { gmtime t with wday := 0 }) :
    modifiedSince t' v = compareFields (gmtime t').fields (gmtime t).fields := by
  rw [modifiedSince, h]
  rfl

/-- **Conditional requests work** for a date that `rfc822_time_buf` has written exactly for
the years up to 2020, and for the time zero, which it takes for the present time, only at the
time zero. -/
theorem conditional_get_iff {now t : ℕ} (hnow : InSpan now) (ht : InSpan t) :
    TellsChanges t (rfc822TimeBuf now t) ↔
      (gmtime t).year ≤ 120 ∧ (t ≠ 0 ∨ now = 0) := by
  by_cases hzero : t = 0 ∧ now ≠ 0
  · -- the date is that of the present time, which a file of just that time does not exceed
    obtain ⟨rfl, hne⟩ := hzero
    have hread : dateToTm (rfc822TimeBuf now 0) = _ := dateToTm_rfc822TimeBuf hnow
    rw [if_pos rfl] at hread
    refine iff_of_false (fun h => ?_) (fun h => by simp [hne] at h)
    by_cases hlast : (gmtime now).year ≤ 120
    · rw [if_pos hlast] at hread
      have hlater := h.2 now (Nat.pos_of_ne_zero hne) hnow
      rw [modifiedSince_of_eq hread, compareFields_self] at hlater
      cases hlater
    · rw [if_neg hlast] at hread
      have hsame := h.1
      rw [modifiedSince, hread] at hsame
      cases hsame
  · have hwritten : (if t = 0 then now else t) = t := by
      split_ifs with h
      · exact (not_ne_iff.mp fun hne => hzero ⟨h, hne⟩).trans h.symm
      · rfl
    have hcond : t ≠ 0 ∨ now = 0 := by
      by_contra h
      rw [not_or, not_not] at h
      exact hzero h
    have hread := @dateToTm_rfc822TimeBuf now t (by rw [hwritten]; exact ht)
    rw [hwritten] at hread
    by_cases hlast : (gmtime t).year ≤ 120
    · rw [if_pos hlast] at hread
      refine iff_of_true ⟨?_, fun t₂ hlt _ => ?_⟩ ⟨hlast, hcond⟩
      · rw [modifiedSince_of_eq hread, compareFields_self]
      · rw [modifiedSince_of_eq hread, gmtime_lex hlt]
    · rw [if_neg hlast] at hread
      refine iff_of_false (fun h => ?_) fun h => hlast h.1
      have hsame := h.1
      rw [modifiedSince, hread] at hsame
      cases hsame

/-- The dates of the environment, as `util.c` computes them at the time `now`. -/
def withDates (now : ℕ) (env : Env) : Env :=
  { env with
    rfc822 := rfc822TimeBuf now
    modifiedSince := fun t v => modifiedSince t v != 0 }

/-- A request that sends the date of a file back is answered without the file. -/
theorem serveFile_unchanged {cfg : Config} {env : Env} {fd off now : ℕ} {st : Stat} {contents : Mem}
    {path : Bytes} {c : Conn} (hfile : st.kind = .regular) (hspan : InSpan st.mtime)
    (hlast : (gmtime st.mtime).year ≤ 120) (hne : st.mtime ≠ 0)
    (hsince : c.req.ifModifiedSince = some off)
    (hecho : c.req.streamString off = rfc822TimeBuf now st.mtime) :
    serveFile cfg (withDates now env) fd st contents path c
      = (0, (sendRNotModified cfg (withDates now env) c).emit (.closed fd)) := by
  have hread : dateToTm (rfc822TimeBuf now st.mtime) = _ :=
    dateToTm_rfc822TimeBuf (by rw [if_neg hne]; exact hspan)
  rw [if_neg hne, if_pos hlast] at hread
  have hsame : (c.req.ifModifiedSince.map fun off =>
      (withDates now env).modifiedSince st.mtime (c.req.streamString off)) = some false := by
    rw [hsince, Option.map_some, hecho]
    show some (modifiedSince _ _ != 0) = _
    rw [modifiedSince_of_eq hread, compareFields_self]
    rfl
  rw [serveFile, if_neg (by rw [hfile]; decide), if_pos hsame]

/-- A file of 1994. -/
theorem conditional_get_1994 :
    TellsChanges 784111777 (rfc822TimeBuf 0 784111777) :=
  (conditional_get_iff (by decide) (by decide)).mpr (by decide)

/-- From the year 2021 on, a file is sent again each time. -/
theorem conditional_get_2021 : ¬ ∀ now t, InSpan now → InSpan t →
    TellsChanges t (rfc822TimeBuf now t) := by
  intro h
  have hsame := (h 1609459200 1609459200 (by decide) (by decide)).1
  revert hsame
  decide

end Yabwf
