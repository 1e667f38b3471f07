import Yabwf.Globals

/-!
The string functions of `util.c`, with `get_mime_type` of `hash.c` and `access_allow`
of `access.c`.

* `unescapeUri`, `cleanPathname`: percent-decoding and path cleaning. The source works
  in place; both passes only ever write behind the byte they read next, so that here
  they are functions from a string to a string.
* `simpleItoa`, `boaAtoi`, `scanUnsigned`: numbers.
* `checkHost`, `strlower`, `toUpper`: host and header names.
* `getMimeType`, `accessAllow`: table lookups.
-/

namespace Yabwf

/-! ### The C library on strings -/

/-- A fact about all bytes is checked number by number. -/
lemma forall_byte {p : UInt8 → Prop} (h : ∀ n : Fin 256, p (UInt8.ofNat n)) (b : UInt8) : p b := by
  simpa using h ⟨b.toNat, b.toNat_lt⟩

/-- A `char` as the signed number that the comparisons of the source see. -/
def charVal (b : UInt8) : ℤ := if b.toNat < 128 then b.toNat else (b.toNat : ℤ) - 256

/-- `isdigit` in the C locale. -/
def isDigit (b : UInt8) : Bool := 48 ≤ b && b ≤ 57

/-- `isalnum` in the C locale. -/
def isAlnum (b : UInt8) : Bool :=
  isDigit b || (65 ≤ b && b ≤ 90) || (97 ≤ b && b ≤ 122)

/-- `tolower` in the C locale. -/
def toLowerByte (b : UInt8) : UInt8 := if 65 ≤ b && b ≤ 90 then b + 32 else b

/-- `toupper` in the C locale. -/
def toUpperByte (b : UInt8) : UInt8 := if 97 ≤ b && b ≤ 122 then b - 32 else b

/-- `isspace` in the C locale. -/
def isSpace (b : UInt8) : Bool := b == 32 || (9 ≤ b && b ≤ 13)

/-- `strncasecmp(s, pat, strlen(pat)) == 0`. -/
def hasPrefixCase (pat s : Bytes) : Bool :=
  (pat.map toLowerByte).isPrefixOf (s.map toLowerByte)

/-- `strstr`, as the offset of the first occurrence. -/
def strstr (pat : Bytes) : Bytes → Option ℕ
  | [] => if pat = [] then some 0 else none
  | b :: s => if pat.isPrefixOf (b :: s) then some 0 else (strstr pat s).map (· + 1)

/-- `strchr`, as an offset. -/
def strchr (b : UInt8) (s : Bytes) : Option ℕ := s.findIdx? (· == b)

lemma strchr_isSome {b : UInt8} {s : Bytes} : (strchr b s).isSome ↔ b ∈ s := by
  rw [strchr, List.findIdx?_isSome, List.any_eq_true]
  simp

lemma strchr_eq_none {b : UInt8} {s : Bytes} (h : strchr b s = none) : b ∉ s := by
  rw [strchr, List.findIdx?_eq_none_iff] at h
  intro hmem
  simpa using h b hmem

lemma strchr_eq_some {b : UInt8} {s : Bytes} {p : ℕ} (h : strchr b s = some p) :
    p < s.length ∧ b ∉ s.take p ∧ s = s.take p ++ b :: s.drop (p + 1) := by
  rw [strchr, List.findIdx?_eq_some_iff_getElem] at h
  obtain ⟨hlt, hat, hbefore⟩ := h
  have hb : s[p] = b := by simpa using hat
  refine ⟨hlt, fun hmem => ?_, ?_⟩
  · obtain ⟨j, hj, hjb⟩ := List.mem_iff_getElem.mp hmem
    rw [List.length_take] at hj
    have hne := hbefore j (by omega)
    rw [List.getElem_take] at hjb
    simp [hjb] at hne
  · rw [← hb, List.getElem_cons_drop, List.take_append_drop]

/-- The value of the digits that a string begins with. -/
def leadingNumber (s : Bytes) : ℕ :=
  (s.takeWhile isDigit).foldl (fun n b => 10 * n + (b.toNat - 48)) 0

/-- One `%u` of `sscanf`: white space, a sign and digits; the number saturates in an
`unsigned long` and is then cut to an `unsigned int`. The rest of the input follows. -/
def scanUnsigned (s : Bytes) : Option (ℕ × Bytes) :=
  let s₁ := s.dropWhile isSpace
  let neg := s₁.head? == some 45
  let s₂ := if neg || s₁.head? == some 43 then s₁.drop 1 else s₁
  if (s₂.takeWhile isDigit).isEmpty then none
  else
    let n := leadingNumber s₂
    let v := if ulongMax < n then ulongMax else if neg then (2 ^ 64 - n) % 2 ^ 64 else n
    some (v % 2 ^ 32, s₂.dropWhile isDigit)

/-! ### `util.c` -/

/-- One hexadecimal digit of `HEX_TO_DECIMAL`, which does not check that it is one. -/
def hexDigitVal (b : UInt8) : ℤ :=
  if 65 ≤ charVal b then ((b &&& 0xdf).toNat : ℤ) - 65 + 10 else charVal b - 48

/-- `HEX_TO_DECIMAL`, as the `char` it is assigned to. -/
def hexToDecimal (c d : UInt8) : UInt8 :=
  UInt8.ofNat ((hexDigitVal c * 16 + hexDigitVal d) % 256).toNat

/-- The loop of `unescape_uri` from the read position on: the return value, what is
written from here on, and the query string if one is found. -/
def unescapeLoop (wantQuery : Bool) : Bytes → Bool × Bytes × Option Bytes
  | [] => (true, [], none)
  | 37 :: c :: d :: s =>
      let b := hexToDecimal c d
      if charVal b < 32 ∨ 126 < charVal b then (false, [], none)
      else
        let r := unescapeLoop wantQuery s
        (r.1, b :: r.2.1, r.2.2)
  | 37 :: _ => (false, [], none)
  | b :: s =>
      if b = 63 then (true, [], if wantQuery then some s else none)
      else if b = 35 then
        (true, [], if wantQuery then (strchr 63 s).map fun i => s.drop (i + 1) else none)
      else
        let r := unescapeLoop wantQuery s
        (r.1, b :: r.2.1, r.2.2)

/-- `unescape_uri`: whether it succeeds, the decoded string, and the query string if
it sets one. -/
def unescapeUri (uri : Bytes) (wantQuery : Bool) : Bool × Bytes × Option Bytes :=
  unescapeLoop wantQuery uri

/-- The loop of `clean_pathname`; the flag says that a slash has just been written, so
that `/`, `./` and `../` are skipped at the read position. -/
def cleanLoop : Bool → Bytes → Bytes
  | _, [] => []
  | true, 47 :: p => cleanLoop true p
  | true, 46 :: 47 :: p => cleanLoop true p
  | true, 46 :: 46 :: 47 :: p => cleanLoop true p
  | _, b :: p => if b = 47 then 47 :: cleanLoop true p else b :: cleanLoop false p

/-- `clean_pathname`. -/
def cleanPathname (pathname : Bytes) : Bytes := cleanLoop false pathname

/-- The digits that `simple_itoa` writes, last one first. -/
def itoaLoop : ℕ → ℕ → Bytes → Bytes
  | 0, _, acc => acc
  | fuel + 1, i, acc =>
      let acc := UInt8.ofNat (48 + i % 10) :: acc
      if i / 10 = 0 then acc else itoaLoop fuel (i / 10) acc

/-- `simple_itoa`, whose argument is an `unsigned int`. -/
def simpleItoa (i : ℕ) : Bytes := itoaLoop 21 (i % 2 ^ 32) []

/-- A `w` bit word as the signed number it stands for. -/
def toSigned (w n : ℕ) : ℤ :=
  if n % 2 ^ w < 2 ^ (w - 1) then (n % 2 ^ w : ℕ) else ((n % 2 ^ w : ℕ) : ℤ) - 2 ^ w

/-- `%d` of `printf`. -/
def decimal (i : ℤ) : Bytes :=
  (if i < 0 then str "-" else []) ++ itoaLoop 21 i.natAbs []

/-- `atoi` of a string that begins with a digit: the low 32 bits of the saturating
`strtol`. -/
def atoi (s : Bytes) : ℤ :=
  toSigned 32 (min (leadingNumber s) (2 ^ 63 - 1))

/-- `boa_atoi`. -/
def boaAtoi (s : Bytes) : ℤ :=
  if (s.head?.map isDigit) ≠ some true then -1
  else if atoi s < 0 then -1
  else if s.isPrefixOf (simpleItoa (atoi s).toNat) then atoi s
  else -1

/-- The loop of `check_host` over the characters behind the first. -/
def checkHostLoop : Bool → Bytes → Bool
  | _, [] => true
  | periodOk, b :: s =>
      if isAlnum b || b == 45 then checkHostLoop true s
      else if b == 46 && periodOk then checkHostLoop false s
      else false

/-- `check_host`. -/
def checkHost (r : Bytes) : ℤ :=
  match r with
  | [] => -1
  | b :: s =>
      if !isAlnum b then -1
      else if 63 < r.length then -1
      else if !checkHostLoop false s then -1
      else if !isAlnum (s.getLastD b) then -1
      else r.length

/-- `strlower`. -/
def strlower (s : Bytes) : Bytes := s.map toLowerByte

/-- `to_upper`. -/
def toUpper (s : Bytes) : Bytes := s.map fun b => if b = 45 then 95 else toUpperByte b

/-! ### `hash.c`, `access.c` -/

/-- The text behind the last full stop. -/
def extension (filename : Bytes) : Option Bytes :=
  if 46 ∈ filename then some (filename.reverse.takeWhile (· != 46)).reverse else none

/-- `get_mime_type`. -/
def getMimeType (cfg : Config) (filename : Bytes) : Bytes :=
  match extension filename with
  | none => cfg.defaultType
  | some ext =>
      if ext = [] then cfg.defaultType
      else ((cfg.mimeTypes.find? fun e => e.1 == ext).map Prod.snd).getD cfg.defaultType

/-- `access_allow`: the first rule that matches decides. -/
def accessAllow (cfg : Config) (file : Bytes) : AccessType :=
  ((cfg.accessNodes.find? fun n => cfg.fnmatch n.1 file).map Prod.snd).getD .allow

example : cleanPathname (str "/a/.././/b/..") = str "/a/b/.." := by decide
example : unescapeUri (str "/%2e%2E/a?b=c") true
    = (true, str "/../a", some (str "b=c")) := by decide
example : boaAtoi (str "1024") = 1024 ∧ boaAtoi (str "010") = -1 := by decide

end Yabwf
