import Yabwf.Parsing

/-!
Which lines of a header set the fields of a request.

* `HeaderLine`: a line in the memory that it stands in; its field, and the offset of its value.
* `HeaderField`: the fields that point to the value of a line.
* `optionLine_get`, `optionLine_keepalive`, `optionLine_ranges`: one line.
* `optionLines_get`: a run of lines; the first line with the name of a field in its normal form
  sets it.
* `onlyRealHeaders_iff`: the lines that set a field have its name, unless one has `_` in place
  of `-`.
-/

namespace Yabwf

open Memory

/-! ### Lines -/

/-- A line of a header as `process_option_line` finds it, and the answers that it gets. -/
structure HeaderLine where
  mem : Mem
  line : Ptr
  env : Env := {}

namespace HeaderLine

/-- The line. -/
def text (l : HeaderLine) : Bytes := l.mem.cstr l.line.off (clientStreamSize - l.line.off)

/-- The white space behind the colon at an offset. -/
def blanks (l : HeaderLine) (colon : ℕ) : ℕ :=
  ((l.text.drop (colon + 1)).takeWhile fun b => b == 32 || b == 9).length

/-- The value behind the colon at an offset. -/
def valueAt (l : HeaderLine) (colon : ℕ) : Bytes := l.text.drop (colon + 1 + l.blanks colon)

/-- The name of the field, and the offset of its value if it has one. -/
def field (l : HeaderLine) : Option (Bytes × ℕ) :=
  (strchr 58 l.text).bind fun colon =>
    if l.valueAt colon = [] then none
    else some (l.text.take colon, l.line.off + colon + 1 + l.blanks colon)

/-- The normal form of the name, and the value. -/
def pair (l : HeaderLine) : Option (Bytes × Bytes) :=
  (strchr 58 l.text).bind fun colon =>
    if l.valueAt colon = [] then none else some (toUpper (l.text.take colon), l.valueAt colon)

/-- The value of a field with this name in its normal form. -/
def normalValue (key : Bytes) (l : HeaderLine) : Option ℕ :=
  (l.field.filter fun p => toUpper p.1 = key).map Prod.snd

/-- The value of a field with this name, in any case. -/
def valueOf (name : Bytes) (l : HeaderLine) : Option ℕ :=
  (l.field.filter fun p => p.1.map toLowerByte = name.map toLowerByte).map Prod.snd

end HeaderLine

/-- `process_option_line` on a line. -/
def optionLine (cfg : Config) (l : HeaderLine) (c : Conn) : Bool × Conn :=
  processOptionLine cfg l.env (c.upd fun r => { r with clientStream := l.mem, headerLine := l.line })

/-- The lines of a header, if all of them are accepted. -/
def optionLines (cfg : Config) : List HeaderLine → Conn → Option Conn
  | [], c => some c
  | l :: ls, c =>
      match optionLine cfg l c with
      | (true, d) => optionLines cfg ls d
      | (false, _) => none

/-- The fields that point to the value of a line. -/
inductive HeaderField
  | contentType | contentLength | headerHost | ifModifiedSince
  deriving DecidableEq, Repr

namespace HeaderField

/-- The name of the field in a header. -/
def name : HeaderField → Bytes
  | .contentType => str "Content-Type"
  | .contentLength => str "Content-Length"
  | .headerHost => str "Host"
  | .ifModifiedSince => str "If-Modified-Since"

/-- The name in its normal form. -/
def key : HeaderField → Bytes
  | .contentType => str "CONTENT_TYPE"
  | .contentLength => str "CONTENT_LENGTH"
  | .headerHost => str "HOST"
  | .ifModifiedSince => str "IF_MODIFIED_SINCE"

/-- The field of a request. -/
def get : HeaderField → Request → Option ℕ
  | .contentType, r => r.contentType
  | .contentLength, r => r.contentLength
  | .headerHost, r => r.headerHost
  | .ifModifiedSince, r => r.ifModifiedSince

/-- The request with the field set. -/
def set (off : ℕ) : HeaderField → Request → Request
  | .contentType, r => { r with contentType := some off }
  | .contentLength, r => { r with contentLength := some off }
  | .headerHost, r => { r with headerHost := some off }
  | .ifModifiedSince, r => { r with ifModifiedSince := some off }

lemma get_set (f f' : HeaderField) (off : ℕ) (r : Request) :
    f'.get (f.set off r) = if f' = f then some off else f'.get r := by
  cases f <;> cases f' <;> rfl

lemma key_injective : Function.Injective key := by
  intro f f' h
  cases f <;> cases f' <;> first
    | rfl
    | exact absurd h (by decide)

lemma toUpper_name (f : HeaderField) : toUpper f.name = f.key := by
  cases f <;> decide

end HeaderField

/-! ### One line -/

/-- The fields, the connection and the ranges are left alone. -/
structure SameFields (c d : Conn) : Prop where
  get : ∀ f : HeaderField, f.get d.req = f.get c.req
  keepalive : d.req.keepalive = c.req.keepalive
  ranges : d.req.ranges = c.req.ranges

lemma SameFields.trans {c d e : Conn} (h : SameFields c d) (h' : SameFields d e) :
    SameFields c e :=
  ⟨fun f => (h'.get f).trans (h.get f), h'.keepalive.trans h.keepalive,
    h'.ranges.trans h.ranges⟩

/-- What a header with a name in its normal form, and a value at an offset, changes. -/
structure SetsField (key : Bytes) (off : ℕ) (c : Conn) (res : Bool × Conn) : Prop where
  get : ∀ f : HeaderField, f.get res.2.req =
    if key = f.key ∧ f.get c.req = none then some off else f.get c.req
  keepalive : res.1 = true → key ≠ str "CONNECTION" → res.2.req.keepalive = c.req.keepalive
  ranges : key ≠ str "RANGE" → res.2.req.ranges = c.req.ranges

section

variable {key : Bytes} {off : ℕ} {c : Conn}

/-- A header that sets no field, or one that is set already. -/
lemma SetsField.pass {res : Bool × Conn} (h : SameFields c res.2)
    (hkey : ∀ f : HeaderField, key = f.key → f.get c.req ≠ none) : SetsField key off c res := by
  refine ⟨fun f => ?_, fun _ _ => h.keepalive, fun _ => h.ranges⟩
  rw [h.get f, if_neg fun hset => hkey f hset.1 hset.2]

/-- A header that sets a field. -/
lemma SetsField.set (f : HeaderField) (hnone : f.get c.req = none) :
    SetsField f.key off c (true, c.upd (f.set off)) := by
  refine ⟨fun f' => ?_, fun _ _ => ?_, fun _ => ?_⟩
  · refine (HeaderField.get_set f f' off c.req).trans ?_
    by_cases hf : f' = f
    · rw [if_pos hf, hf, if_pos ⟨rfl, hnone⟩]
    · rw [if_neg hf, if_neg fun h => hf (HeaderField.key_injective h.1.symm)]
  · cases f <;> rfl
  · cases f <;> rfl

lemma optionEnv_same (key value : Bytes) (c : Conn) : SameFields c (optionEnv key value c).2 := by
  rw [optionEnv, addCgiEnv]
  by_cases hroom : c.req.cgiEnvIndex < cgiEnvMax
  · rw [if_pos hroom]
    exact ⟨fun f => by cases f <;> rfl, rfl, rfl⟩
  · rw [if_neg hroom]
    exact ⟨fun f => by cases f <;> rfl, rfl, rfl⟩

/-- A range changes the ranges, and a page is sent for one that is refused. -/
lemma optionRange_sets (cfg : Config) (env : Env) (value : Bytes) (c : Conn) :
    SetsField (str "RANGE") off c
      (match rangeParse c.req value with
        | (false, r) => (false, sendRInvalidRange cfg env { c with req := r })
        | (true, r) => optionEnv (str "RANGE") value { c with req := r }) := by
  have hkey (f : HeaderField) : str "RANGE" ≠ f.key := by
    cases f <;> decide
  have hparse : ∀ f : HeaderField, f.get (rangeParse c.req value).2 = f.get c.req := by
    obtain ⟨ranges, n, heq⟩ := rangeParse_eq c.req value
    intro f
    rw [heq]
    cases f <;> rfl
  have hka : (rangeParse c.req value).2.keepalive = c.req.keepalive := by
    obtain ⟨ranges, n, heq⟩ := rangeParse_eq c.req value
    rw [heq]
  generalize rangeParse c.req value = res at hparse hka ⊢
  obtain ⟨ret, r⟩ := res
  cases ret with
  | true =>
      have henv := optionEnv_same (str "RANGE") value { c with req := r }
      refine ⟨fun f => ?_, fun _ _ => henv.keepalive.trans hka, fun h => absurd rfl h⟩
      rw [if_neg fun h => hkey f h.1]
      exact (henv.get f).trans (hparse f)
  | false =>
      obtain ⟨st, ka, rs, rg, buf, bs, be, hreq⟩ :=
        (sendRInvalidRange_outputs cfg env { c with req := r }).req
      refine ⟨fun f => ?_, nofun, fun h => absurd rfl h⟩
      rw [if_neg fun h => hkey f h.1]
      refine Eq.trans ?_ (hparse f)
      dsimp only
      rw [hreq]
      cases f <;> rfl

/-- **One header.** -/
lemma optionValue_sets (cfg : Config) (env : Env) (key value : Bytes) (off : ℕ) (c : Conn) :
    SetsField key off c (optionValue cfg env key value off c) := by
  have same_refl : SameFields c c := ⟨fun _ => rfl, rfl, rfl⟩
  rw [optionValue]
  by_cases haccept : key = str "ACCEPT"
  · rw [if_pos haccept]
    refine .pass same_refl fun f hf => ?_
    rw [haccept] at hf
    cases f <;> exact absurd hf (by decide)
  rw [if_neg haccept]
  by_cases htype : key = str "CONTENT_TYPE" ∧ c.req.contentType = none
  · rw [if_pos htype, htype.1]
    exact .set .contentType htype.2
  rw [if_neg htype]
  by_cases hlength : key = str "CONTENT_LENGTH" ∧ c.req.contentLength = none
  · rw [if_pos hlength, hlength.1]
    exact .set .contentLength hlength.2
  rw [if_neg hlength]
  by_cases hconn : key = str "CONNECTION" ∧ cfg.kaMax ≠ 0 ∧ c.req.keepalive ≠ .stopped
  · rw [if_pos hconn]
    refine ⟨fun f => ?_, fun _ h => absurd hconn.1 h, fun _ => rfl⟩
    have hf : ¬(key = f.key ∧ f.get c.req = none) := by
      rw [hconn.1]
      cases f <;> exact fun h => absurd h.1 (by decide)
    rw [if_neg hf]
    cases f <;> rfl
  rw [if_neg hconn]
  by_cases hhost : key = str "HOST" ∧ c.req.headerHost = none
  · rw [if_pos hhost, hhost.1]
    exact .set .headerHost hhost.2
  rw [if_neg hhost]
  by_cases hsince : key = str "IF_MODIFIED_SINCE" ∧ c.req.ifModifiedSince = none
  · rw [if_pos hsince, hsince.1]
    exact .set .ifModifiedSince hsince.2
  rw [if_neg hsince]
  -- no header that is passed on is one of the fields that are not set yet
  have hkey : ∀ f : HeaderField, key = f.key → f.get c.req ≠ none := by
    intro f hf hnone
    cases f with
    | contentType => exact htype ⟨hf, hnone⟩
    | contentLength => exact hlength ⟨hf, hnone⟩
    | headerHost => exact hhost ⟨hf, hnone⟩
    | ifModifiedSince => exact hsince ⟨hf, hnone⟩
  by_cases href : key = str "REFERER"
  · rw [if_pos href]
    have hset : SameFields c (c.upd fun r => { r with headerReferer := some off }) :=
      ⟨fun f => by cases f <;> rfl, rfl, rfl⟩
    have hfirst := optionEnv_same key value (c.upd fun r => { r with headerReferer := some off })
    generalize optionEnv key value (c.upd fun r => { r with headerReferer := some off }) = res
      at hfirst ⊢
    obtain ⟨ret, d⟩ := res
    refine .pass ?_ hkey
    cases ret with
    | true => exact (hset.trans hfirst).trans (optionEnv_same key value d)
    | false => exact hset.trans hfirst
  rw [if_neg href]
  by_cases hrange : key = str "RANGE"
  · rw [if_pos hrange]
    by_cases hmarker : c.req.ranges.head?.map Range.stop = some intMax
    · rw [if_pos hmarker]
      exact .pass same_refl hkey
    · rw [if_neg hmarker, hrange]
      exact optionRange_sets cfg env value c
  rw [if_neg hrange]
  by_cases hagent : key = str "USER_AGENT"
  · rw [if_pos hagent]
    have hset : SameFields c (c.upd fun r => { r with headerUserAgent := some off }) :=
      ⟨fun f => by cases f <;> rfl, rfl, rfl⟩
    exact .pass (hset.trans (optionEnv_same key value _)) hkey
  · rw [if_neg hagent]
    exact .pass (optionEnv_same key value c) hkey

end

/-- The request with a line in memory. -/
def Conn.atLine (stream : Mem) (line : Ptr) (c : Conn) : Conn :=
  c.upd fun r => { r with clientStream := stream, headerLine := line }

lemma atLine_same (stream : Mem) (line : Ptr) (c : Conn) : SameFields c (c.atLine stream line) :=
  ⟨fun f => by cases f <;> rfl, rfl, rfl⟩

/-- **One line**: without a value it does nothing; a value goes with the name in its normal
form. -/
lemma optionLine_cases (cfg : Config) (l : HeaderLine) (c : Conn) :
    (l.field = none ∧ l.pair = none ∧
      ∃ ret stream, optionLine cfg l c = (ret, c.atLine stream l.line)) ∨
    ∃ name off value stream, l.field = some (name, off) ∧ l.pair = some (toUpper name, value) ∧
      optionLine cfg l c
        = optionValue cfg l.env (toUpper name) value off (c.atLine stream l.line) := by
  rw [HeaderLine.field, HeaderLine.pair]
  generalize hres : optionLine cfg l c = res
  rw [optionLine] at hres
  unfold processOptionLine at hres
  extract_lets line s at hres
  have hs : s = l.text := rfl
  have hline : line = l.line.off := rfl
  clear_value line s
  subst hs hline
  cases hcolon : strchr 58 l.text with
  | none =>
      rw [hcolon] at hres
      exact Or.inl ⟨rfl, rfl, false, l.mem, hres.symm⟩
  | some colon =>
      rw [hcolon] at hres
      dsimp -zeta only [Option.bind_some] at hres ⊢
      extract_lets key e blanks value at hres
      have he : e = c.atLine (l.mem.store l.line.off (key ++ [0])) l.line := rfl
      have hvalue : value = l.valueAt colon := rfl
      have hblanks : blanks = l.blanks colon := rfl
      have hkey : key = toUpper (l.text.take colon) := rfl
      clear_value e value blanks key
      subst hvalue hblanks he hkey
      by_cases hnil : l.valueAt colon = []
      · rw [if_pos hnil] at hres ⊢
        exact Or.inl ⟨rfl, if_pos hnil, true, _, hres.symm⟩
      · rw [if_neg hnil] at hres ⊢
        exact Or.inr ⟨_, _, _, _, rfl, if_neg hnil, hres.symm⟩

/-- Nothing is set without a value, and only the field with the name otherwise. -/
lemma optionLine_sets (cfg : Config) (l : HeaderLine) (c : Conn) :
    (l.field = none → SameFields c (optionLine cfg l c).2) ∧
      ∀ name off, l.field = some (name, off) →
        SetsField (toUpper name) off c (optionLine cfg l c) := by
  rcases optionLine_cases cfg l c with ⟨hfield, -, ret, stream, heq⟩ |
    ⟨name, off, value, stream, hfield, -, heq⟩
  · rw [heq, hfield]
    exact ⟨fun _ => atLine_same stream l.line c, nofun⟩
  · rw [heq, hfield]
    refine ⟨nofun, fun name' off' h => ?_⟩
    rw [Option.some.injEq, Prod.mk.injEq] at h
    obtain ⟨rfl, rfl⟩ := h
    have hsame := atLine_same stream l.line c
    have hsets := optionValue_sets cfg l.env (toUpper name) value off (c.atLine stream l.line)
    refine ⟨fun f => ?_, fun hret hconn => ?_, fun hrange => ?_⟩
    · rw [← hsame.get f]
      exact hsets.get f
    · exact (hsets.keepalive hret hconn).trans hsame.keepalive
    · exact (hsets.ranges hrange).trans hsame.ranges

lemma HeaderLine.normalValue_of_field {l : HeaderLine} {p : Bytes × ℕ} (h : l.field = some p)
    (key : Bytes) : l.normalValue key = if toUpper p.1 = key then some p.2 else none := by
  rw [normalValue, h, Option.filter_some]
  split_ifs <;> simp_all

lemma HeaderLine.valueOf_of_field {l : HeaderLine} {p : Bytes × ℕ} (h : l.field = some p)
    (name : Bytes) : l.valueOf name
      = if p.1.map toLowerByte = name.map toLowerByte then some p.2 else none := by
  rw [valueOf, h, Option.filter_some]
  split_ifs <;> simp_all

section

variable (cfg : Config) (l : HeaderLine) (c : Conn)

/-- A field is set by the first line with its name in the normal form. -/
lemma optionLine_get (f : HeaderField) :
    f.get (optionLine cfg l c).2.req = (f.get c.req).or (l.normalValue f.key) := by
  obtain ⟨hnone, hsome⟩ := optionLine_sets cfg l c
  cases hfield : l.field with
  | none =>
      rw [(hnone hfield).get, HeaderLine.normalValue, hfield]
      exact Option.or_none.symm
  | some p =>
      rw [(hsome p.1 p.2 hfield).get, HeaderLine.normalValue_of_field hfield]
      by_cases hkey : toUpper p.1 = f.key
      · rw [if_pos hkey]
        cases hget : f.get c.req with
        | none => exact if_pos ⟨hkey, rfl⟩
        | some off => exact if_neg fun h => Option.some_ne_none off h.2
      · rw [if_neg hkey, Option.or_none, if_neg fun h => hkey h.1]

/-- An accepted line has a say in the connection only as `Connection`. -/
lemma optionLine_keepalive (hret : (optionLine cfg l c).1 = true)
    (h : l.normalValue (str "CONNECTION") = none) :
    (optionLine cfg l c).2.req.keepalive = c.req.keepalive := by
  obtain ⟨hnone, hsome⟩ := optionLine_sets cfg l c
  cases hfield : l.field with
  | none => exact (hnone hfield).keepalive
  | some p =>
      refine (hsome p.1 p.2 hfield).keepalive hret fun hkey => ?_
      rw [HeaderLine.normalValue_of_field hfield, if_pos hkey] at h
      cases h

/-- A line has a say in the ranges only as `Range`. -/
lemma optionLine_ranges (h : l.normalValue (str "RANGE") = none) :
    (optionLine cfg l c).2.req.ranges = c.req.ranges := by
  obtain ⟨hnone, hsome⟩ := optionLine_sets cfg l c
  cases hfield : l.field with
  | none => exact (hnone hfield).ranges
  | some p =>
      refine (hsome p.1 p.2 hfield).ranges fun hkey => ?_
      rw [HeaderLine.normalValue_of_field hfield, if_pos hkey] at h
      cases h

end

/-! ### Names -/

/-- The normal form does not depend on the case. -/
lemma toUpper_congr {s t : Bytes} (h : s.map toLowerByte = t.map toLowerByte) :
    toUpper s = toUpper t := by
  have hbyte : ∀ b : UInt8, (if b = 45 then 95 else toUpperByte b)
      = if toLowerByte b = 45 then 95 else toUpperByte (toLowerByte b) :=
    forall_byte (by decide +kernel)
  have hmap (s : Bytes) : toUpper s = toUpper (s.map toLowerByte) := by
    rw [toUpper, toUpper, List.map_map]
    exact List.map_congr_left fun b _ => hbyte b
  rw [hmap s, h, ← hmap t]

/-- A name without `_` in its normal form is written in one way, up to the case. -/
lemma map_toLower_of_toUpper {s t : Bytes} (ht : 95 ∉ toUpper t) (h : toUpper s = toUpper t) :
    s.map toLowerByte = t.map toLowerByte := by
  have hbyte : ∀ b : UInt8, (if b = 45 then 95 else toUpperByte b) ≠ 95 →
      toLowerByte b = toLowerByte (if b = 45 then 95 else toUpperByte b) :=
    forall_byte (by decide +kernel)
  have hmap {s : Bytes} (hs : 95 ∉ toUpper s) :
      s.map toLowerByte = (toUpper s).map toLowerByte := by
    rw [toUpper, List.map_map]
    refine List.map_congr_left fun b hb => hbyte b fun h => hs ?_
    rw [← h]
    exact List.mem_map_of_mem hb
  rw [hmap (h ▸ ht), h, ← hmap ht]

namespace HeaderLine

variable {l : HeaderLine} {name : Bytes} {off : ℕ}

/-- A line with the name has it in its normal form, too. -/
lemma normalValue_of_valueOf (h : l.valueOf name = some off) :
    l.normalValue (toUpper name) = some off := by
  cases hfield : l.field with
  | none =>
      rw [valueOf, hfield] at h
      cases h
  | some p =>
      rw [valueOf_of_field hfield] at h
      split_ifs at h with hname
      rw [normalValue_of_field hfield, if_pos (toUpper_congr hname), h]

/-- A name without `_` in its normal form is the only one with it. -/
lemma normalValue_eq_none (hname : 95 ∉ toUpper name) (h : l.valueOf name = none) :
    l.normalValue (toUpper name) = none := by
  cases hfield : l.field with
  | none =>
      rw [normalValue, hfield]
      rfl
  | some p =>
      rw [valueOf_of_field hfield] at h
      rw [normalValue_of_field hfield, if_neg]
      intro hkey
      rw [if_pos (map_toLower_of_toUpper hname hkey)] at h
      cases h

end HeaderLine

/-! ### Runs of lines -/

section

variable {cfg : Config} {c d : Conn}

lemma optionLines_append {p q : List HeaderLine} (h : optionLines cfg (p ++ q) c = some d) :
    ∃ e, optionLines cfg p c = some e ∧ optionLines cfg q e = some d := by
  induction p generalizing c with
  | nil => exact ⟨c, rfl, h⟩
  | cons l p ih =>
      rw [List.cons_append, optionLines] at h
      rw [optionLines]
      generalize optionLine cfg l c = res at h ⊢
      obtain ⟨ret, e⟩ := res
      cases ret with
      | true => exact ih h
      | false => cases h

/-- **A run of lines**: what is not set yet is set by the first line with the name in its normal
form. -/
lemma optionLines_get {ls : List HeaderLine} (h : optionLines cfg ls c = some d)
    (f : HeaderField) :
    f.get d.req = (f.get c.req).or (ls.findSome? (HeaderLine.normalValue f.key)) := by
  induction ls generalizing c with
  | nil =>
      rw [optionLines, Option.some.injEq] at h
      rw [List.findSome?_nil, Option.or_none, h]
  | cons l ls ih =>
      have hstep := optionLine_get cfg l c f
      rw [optionLines] at h
      generalize optionLine cfg l c = res at h hstep
      obtain ⟨ret, e⟩ := res
      cases ret with
      | true =>
          rw [ih h, hstep, Option.or_assoc, List.findSome?_cons]
          cases l.normalValue f.key <;> rfl
      | false => cases h

end

/-- What the last of these lines, read by `d` when `c` has read the others, leaves in the fields
comes from lines with their names. A line that is refused ends the connection with a page. -/
structure ActsByName (cfg : Config) (c : Conn) (p : List HeaderLine) (l : HeaderLine) (d : Conn) :
    Prop where
  get : ∀ f : HeaderField, f.get (optionLine cfg l d).2.req
    = (f.get c.req).or ((p ++ [l]).findSome? (HeaderLine.valueOf f.name))
  keepalive : (optionLine cfg l d).1 = true →
    (optionLine cfg l d).2.req.keepalive ≠ d.req.keepalive →
      l.valueOf (str "Connection") ≠ none
  ranges : (optionLine cfg l d).2.req.ranges ≠ d.req.ranges → l.valueOf (str "Range") ≠ none

/-- Only lines with the name of a field set it, and the first one does. -/
def OnlyRealHeaders (cfg : Config) (c : Conn) (ls : List HeaderLine) : Prop :=
  ∀ p l d, p ++ [l] <+: ls → optionLines cfg p c = some d → ActsByName cfg c p l d

/-- The first line with the normal form of the name of a field that is not set has its name. -/
def FirstIsReal (cfg : Config) (c : Conn) (ls : List HeaderLine) : Prop :=
  ∀ p l d, p ++ [l] <+: ls → optionLines cfg p c = some d → ∀ f : HeaderField,
    f.get c.req = none → (∀ l' ∈ p, l'.normalValue f.key = none) →
      l.normalValue f.key ≠ none → l.valueOf f.name ≠ none

/-- A search that finds less finds the same, if it finds what the other finds first. -/
lemma findSome?_congr_first {α β : Type*} {f g : α → Option β}
    (hfg : ∀ a b, g a = some b → f a = some b) {s : List α}
    (h : ∀ p a, p ++ [a] <+: s → (∀ a' ∈ p, f a' = none) → f a ≠ none → g a ≠ none) :
    s.findSome? f = s.findSome? g := by
  induction s with
  | nil => rfl
  | cons a s ih =>
      rw [List.findSome?_cons, List.findSome?_cons]
      cases hf : f a with
      | none =>
          have hg : g a = none := by
            by_contra hg
            obtain ⟨b, hb⟩ := Option.ne_none_iff_exists'.mp hg
            rw [hfg a b hb] at hf
            cases hf
          rw [hg]
          refine ih fun p b hp hnone hb => h (a :: p) b ?_ ?_ hb
          · exact List.cons_prefix_cons.mpr ⟨rfl, hp⟩
          · exact List.forall_mem_cons.mpr ⟨hf, hnone⟩
      | some b =>
          have hg := h [] a (List.cons_prefix_cons.mpr ⟨rfl, List.nil_prefix⟩) nofun
            (by rw [hf]; exact Option.some_ne_none b)
          obtain ⟨b', hb'⟩ := Option.ne_none_iff_exists'.mp hg
          rw [hb', ← hf, hfg a b' hb']

/-- **Only the real header sets a field**, and the first one wins, exactly if the first line with
the normal form of the name of a field that is not set has its name. -/
theorem onlyRealHeaders_iff (cfg : Config) (c : Conn) (ls : List HeaderLine) :
    OnlyRealHeaders cfg c ls ↔ FirstIsReal cfg c ls := by
  have hfg (f : HeaderField) : ∀ (l : HeaderLine) off, l.valueOf f.name = some off →
      l.normalValue f.key = some off := by
    intro l off h
    rw [← f.toUpper_name]
    exact HeaderLine.normalValue_of_valueOf h
  -- what the lines do in any case
  have hget {p : List HeaderLine} {l : HeaderLine} {d : Conn}
      (hread : optionLines cfg p c = some d) (f : HeaderField) :
      f.get (optionLine cfg l d).2.req
        = (f.get c.req).or ((p ++ [l]).findSome? (HeaderLine.normalValue f.key)) := by
    rw [optionLine_get, optionLines_get hread, Option.or_assoc, List.findSome?_append,
      List.findSome?_singleton]
  constructor
  · intro h p l d hp hread f hunset hnone hl
    have hacts := (h p l d hp hread).get f
    have hfirst : ∀ l' ∈ p, l'.valueOf f.name = none := by
      intro l' hmem
      by_contra hval
      obtain ⟨off, hoff⟩ := Option.ne_none_iff_exists'.mp hval
      have hnormal := hfg f l' off hoff
      rw [hnone l' hmem] at hnormal
      cases hnormal
    rw [hget hread, hunset, Option.none_or, Option.none_or, List.findSome?_append,
      List.findSome?_append, List.findSome?_eq_none_iff.mpr hnone,
      List.findSome?_eq_none_iff.mpr hfirst, Option.none_or, Option.none_or,
      List.findSome?_singleton, List.findSome?_singleton] at hacts
    rwa [← hacts]
  · intro h p l d hp hread
    refine ⟨fun f => ?_, fun hret hka => ?_, fun hranges => ?_⟩
    · rw [hget hread]
      cases hset : f.get c.req with
      | some off => rfl
      | none =>
          rw [Option.none_or, Option.none_or]
          refine findSome?_congr_first (hfg f) fun p' l' hp' hnone hl' => ?_
          obtain ⟨q, rfl⟩ : p' <+: p := by
            rcases List.prefix_concat_iff.mp hp' with heq | hlt
            · rw [(List.append_inj' heq rfl).1]
            · exact (List.prefix_append p' [l']).trans hlt
          obtain ⟨e, hread', -⟩ := optionLines_append hread
          exact h p' l' e (hp'.trans hp) hread' f hset hnone hl'
    · exact fun hval => hka (optionLine_keepalive cfg l d hret
        (HeaderLine.normalValue_eq_none (by decide) hval))
    · exact fun hval => hranges (optionLine_ranges cfg l d
        (HeaderLine.normalValue_eq_none (by decide) hval))

/-- A line that stands alone in the memory. -/
def headerLine (text : String) : HeaderLine where
  mem := Mem.store (fun _ => 0) 0 (str text)
  line := {}

/-- `Content_Length` sets the length. -/
theorem content_length_underscore :
    ¬OnlyRealHeaders {} { req := { fd := 4 } } [headerLine "Content_Length: 5"] := by
  intro h
  have hset : (optionLine {} (headerLine "Content_Length: 5")
      { req := { fd := 4 } }).2.req.contentLength = some 16 := by decide +kernel
  have hnone : (headerLine "Content_Length: 5").valueOf (str "Content-Length") = none := by
    decide +kernel
  have hacts := (h [] _ _ List.prefix_rfl rfl).get .contentLength
  have hget : HeaderField.contentLength.get (optionLine {} (headerLine "Content_Length: 5")
      { req := { fd := 4 } }).2.req = some 16 := hset
  rw [hget] at hacts
  have hfind : ([] ++ [headerLine "Content_Length: 5"]).findSome?
      (HeaderLine.valueOf (HeaderField.contentLength).name) = none := by
    rw [List.nil_append, List.findSome?_singleton]
    exact hnone
  rw [hfind] at hacts
  cases hacts

end Yabwf
