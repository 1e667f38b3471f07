import Mathlib.Data.Nat.Digits.Defs
import Yabwf.Range

/-!
The numbers in the header of a response.

* `numeral`, `simpleItoa_eq`: `simple_itoa` writes the numeral of its argument, cut to an
  `unsigned int`.
* `writes`: the texts that a function queues.
* `LengthsExact`: `Content-Length` is the length of the body, and `Content-Range` names the
  first and the last byte and the size of the file.
* `length_headers_exact_iff`: this is so exactly for files below four gigabytes.
-/

namespace Yabwf

/-! ### Numerals -/

/-- The decimal numeral of a number. -/
def numeral (n : ℕ) : Bytes :=
  if n = 0 then [48] else ((Nat.digits 10 n).map fun d => UInt8.ofNat (48 + d)).reverse

lemma numeral_of_lt {n : ℕ} (h : n < 10) : numeral n = [UInt8.ofNat (48 + n)] := by
  rw [numeral]
  split_ifs with hzero
  · rw [hzero]
    rfl
  · rw [Nat.digits_of_lt 10 n hzero h]
    rfl

lemma numeral_of_le {n : ℕ} (h : 10 ≤ n) :
    numeral n = numeral (n / 10) ++ [UInt8.ofNat (48 + n % 10)] := by
  have hpos : 0 < n := by omega
  have hdiv : n / 10 ≠ 0 := by omega
  rw [numeral, numeral, if_neg hpos.ne', if_neg hdiv, Nat.digits_def' (by decide) hpos,
    List.map_cons, List.reverse_cons]

/-- The number that a numeral stands for. -/
def numeralValue (bs : Bytes) : ℕ := Nat.ofDigits 10 (bs.reverse.map fun b => b.toNat - 48)

lemma numeralValue_numeral (n : ℕ) : numeralValue (numeral n) = n := by
  rw [numeralValue, numeral]
  split_ifs with hzero
  · rw [hzero]
    rfl
  · rw [List.reverse_reverse, List.map_map]
    have hid : (Nat.digits 10 n).map ((fun b : UInt8 => b.toNat - 48) ∘ fun d =>
        UInt8.ofNat (48 + d)) = Nat.digits 10 n := by
      refine (List.map_congr_left fun d hd => ?_).trans (List.map_id _)
      have hlt : d < 10 := Nat.digits_lt_base (by decide) hd
      have htoNat : (UInt8.ofNat (48 + d)).toNat = 48 + d := by
        rw [UInt8.toNat_ofNat']
        omega
      rw [Function.comp_apply, htoNat, id_eq, Nat.add_sub_cancel_left]
    rw [hid, Nat.ofDigits_digits]

lemma numeral_injective : Function.Injective numeral := fun m n h => by
  rw [← numeralValue_numeral m, h, numeralValue_numeral]

/-- The loop of `simple_itoa` writes the numeral in front of what is there, as long as the
array holds it. -/
lemma itoaLoop_eq {fuel i : ℕ} (h : i < 10 ^ fuel) (hpos : 0 < fuel) (acc : Bytes) :
    itoaLoop fuel i acc = numeral i ++ acc := by
  induction fuel generalizing i acc with
  | zero => omega
  | succ fuel ih =>
      rw [itoaLoop]
      split_ifs with hlast
      · have hlt : i < 10 := by omega
        rw [numeral_of_lt hlt, Nat.mod_eq_of_lt hlt, List.singleton_append]
      · have hle : 10 ≤ i := by omega
        have hdiv : i / 10 < 10 ^ fuel := by
          rw [pow_succ] at h
          omega
        have hfuel : 0 < fuel := by
          rcases Nat.eq_zero_or_pos fuel with rfl | hpos'
          · omega
          · exact hpos'
        rw [ih hdiv hfuel, numeral_of_le hle, List.append_assoc, List.singleton_append]

lemma simpleItoa_eq (i : ℕ) : simpleItoa i = numeral (i % 2 ^ 32) := by
  have hlt : i % 2 ^ 32 < 10 ^ 21 := by omega
  rw [simpleItoa, itoaLoop_eq hlt (by decide), List.append_nil]

/-- `simple_itoa` is right exactly on the numbers of an `unsigned int`. -/
lemma simpleItoa_eq_numeral_iff (i : ℕ) : simpleItoa i = numeral i ↔ i < 2 ^ 32 := by
  rw [simpleItoa_eq, numeral_injective.eq_iff]
  omega

lemma numeral_ne_nil (n : ℕ) : numeral n ≠ [] := by
  rcases Nat.lt_or_ge n 10 with h | h
  · rw [numeral_of_lt h]
    exact List.cons_ne_nil _ _
  · rw [numeral_of_le h]
    exact List.append_ne_nil_of_right_ne_nil _ (List.cons_ne_nil _ _)

/-! ### What is queued -/

/-- The texts that are queued between two states of a connection. -/
def writes (c c' : Conn) : List Bytes :=
  (c'.trace.drop c.trace.length).filterMap fun
    | .buffered bs => some bs
    | _ => none

/-- Queueing texts in order. -/
def reqWrites (msgs : List Bytes) (c : Conn) : Conn := msgs.foldl (fun c m => reqWrite m c) c

/-- Nothing is queued for a request that is no longer served. -/
lemma reqWrites_of_done_lt {c : Conn} (h : ReqStatus.done.code < c.req.status.code)
    (msgs : List Bytes) : reqWrites msgs c = c := by
  induction msgs with
  | nil => rfl
  | cons m msgs ih =>
      rw [reqWrites, List.foldl_cons, reqWrite, if_pos (Or.inr h)]
      exact ih

/-- The texts are queued, as long as they fit into the buffer. -/
lemma reqWrites_trace {msgs : List Bytes} {c : Conn} (hne : ∀ m ∈ msgs, m ≠ [])
    (hfit : (reqWrites msgs c).req.status.code ≤ ReqStatus.done.code) :
    (reqWrites msgs c).trace = c.trace ++ msgs.map .buffered := by
  induction msgs generalizing c with
  | nil => simp [reqWrites]
  | cons m msgs ih =>
      have hm : m ≠ [] := hne m List.mem_cons_self
      have hstep : (reqWrites msgs (reqWrite m c)).req.status.code ≤ ReqStatus.done.code := hfit
      have hc : ¬ReqStatus.done.code < c.req.status.code := by
        intro hc
        rw [reqWrite, if_pos (Or.inr hc), reqWrites_of_done_lt hc] at hstep
        omega
      have hroom : ¬bufferSize < c.req.bufferEnd + m.length := by
        intro hroom
        have hdead : ReqStatus.done.code < c.die.req.status.code := by
          change ReqStatus.done.code < ReqStatus.dead.code
          decide
        rw [reqWrite, if_neg (not_or.mpr ⟨hm, hc⟩), if_pos hroom,
          reqWrites_of_done_lt hdead] at hstep
        omega
      have htrace : (reqWrite m c).trace = c.trace ++ [.buffered m] := by
        rw [reqWrite, if_neg (not_or.mpr ⟨hm, hc⟩), if_neg hroom]
        rfl
      rw [reqWrites, List.foldl_cons, ← reqWrites,
        ih (fun m' hm' => hne m' (List.mem_cons_of_mem _ hm')) hstep, htrace,
        List.append_assoc, List.map_cons, List.singleton_append]

lemma writes_reqWrites {msgs : List Bytes} {c : Conn} (hne : ∀ m ∈ msgs, m ≠ [])
    (hfit : (reqWrites msgs c).req.status.code ≤ ReqStatus.done.code) :
    writes c (reqWrites msgs c) = msgs := by
  rw [writes, reqWrites_trace hne hfit, List.drop_left, List.filterMap_map]
  exact List.filterMap_some

/-- Texts that are short enough are queued. -/
lemma reqWrites_status {msgs : List Bytes} {c : Conn}
    (hlen : c.req.bufferEnd + msgs.flatten.length ≤ bufferSize) :
    (reqWrites msgs c).req.status = c.req.status := by
  induction msgs generalizing c with
  | nil => rfl
  | cons m msgs ih =>
      rw [List.flatten_cons, List.length_append] at hlen
      rw [reqWrites, List.foldl_cons, ← reqWrites, reqWrite]
      split_ifs with hskip hroom
      · exact ih (by omega)
      · omega
      · rw [ih]
        · rfl
        · simp only [Conn.append, Conn.emit_req, Conn.upd_req]
          omega

/-! ### The fields -/

/-- `stop - start + 1` in an `unsigned long`. -/
def Range.bytes (range : Range) : ℕ := (range.stop + 2 ^ 64 - range.start + 1) % 2 ^ 64

/-- The field that `send_r_partial_content` writes for a single range. -/
def printRangeLength (c : Conn) : Conn :=
  c |> reqWrite (str "Content-Length: ")
    |> reqWrite (simpleItoa (c.req.ranges.headD ⟨0, 0⟩).bytes)
    |> reqWrite crlf

lemma sendRPartialContent_single {cfg : Config} {env : Env} {c : Conn} {d : Conn}
    (hd : d = (c.setResponse 206 |> statusLine cfg env " 206 Partial Content\r\n"
      |> printLastModified env)) (hsingle : ¬1 < d.req.numranges) :
    sendRPartialContent cfg env c
      = (printRangeLength d |> printPartialContentContinue cfg |> reqWrite crlf) := by
  subst hd
  rw [sendRPartialContent, if_neg hsingle]
  rfl

/-- The number of bytes of a range. -/
def Range.length (range : Range) : ℕ := range.stop - range.start + 1

/-- The number of bytes that the body of the response carries. -/
def bodyLength (r : Request) : ℕ := (r.ranges.map Range.length).sum

/-- Whenever the fields are queued for a request with these ranges, their numbers are the
length of the body, the ends of the range and the size of the file. -/
structure LengthsExact (r : Request) : Prop where
  ok : ∀ c : Conn, c.req.ranges = r.ranges → c.req.filesize = r.filesize →
    (printContentLength c).req.status.code ≤ ReqStatus.done.code →
      r.ranges = [⟨0, r.filesize - 1⟩] →
        writes c (printContentLength c)
          = [str "Content-Length: ", numeral (bodyLength r), crlf]
  single : ∀ c : Conn, c.req.ranges = r.ranges → c.req.filesize = r.filesize →
    (printRangeLength c).req.status.code ≤ ReqStatus.done.code →
      ∀ range, r.ranges = [range] →
        writes c (printRangeLength c)
          = [str "Content-Length: ", numeral (bodyLength r), crlf]
  part : ∀ c : Conn, c.req.ranges = r.ranges → c.req.filesize = r.filesize →
    (printContentRange c).req.status.code ≤ ReqStatus.done.code →
      ∀ range rest, r.ranges = range :: rest →
        writes c (printContentRange c)
          = [str "Content-Range: bytes ", numeral range.start, str "-", numeral range.stop,
              str "/", numeral r.filesize, crlf]

/-! ### The ranges that are accepted -/

/-- A range that `ranges_fixup` keeps lies inside the file. -/
lemma rangeFixup_inside {filesize : ℕ} (hpos : 0 < filesize) {range range' : Range}
    (h : rangeFixup filesize range = some range') :
    range'.start ≤ range'.stop ∧ range'.stop < filesize := by
  rw [rangeFixup] at h
  split_ifs at h <;> · cases h; constructor <;> dsimp only at * <;> omega

/-- What `ranges_fixup` leaves when it accepts the ranges. -/
lemma rangesFixup_eq_true {cfg : Config} {env : Env} {c c' : Conn}
    (h : rangesFixup cfg env c = (true, c')) :
    0 < c.req.filesize ∧ c'.req.filesize = c.req.filesize ∧
      c'.req.ranges = c.req.ranges.filterMap (rangeFixup c.req.filesize) ∧
      c'.req.ranges ≠ [] := by
  unfold rangesFixup at h
  extract_lets ranges d at h
  by_cases hempty : ranges = []
  · rw [if_pos hempty] at h
    exact absurd (Prod.mk.inj h).1 Bool.false_ne_true
  rw [if_neg hempty] at h
  obtain ⟨-, rfl⟩ := Prod.mk.inj h
  have hpos : c.req.filesize ≠ 0 := fun hzero => hempty (if_pos hzero)
  exact ⟨Nat.pos_of_ne_zero hpos, rfl, if_neg hpos, hempty⟩

/-- The whole file is a single range. -/
lemma rangesFixup_whole {cfg : Config} {env : Env} {c c' : Conn}
    (h : rangesFixup cfg env c = (true, c')) (hwhole : c.req.ranges = [⟨0, ulongMax⟩])
    (hsize : c.req.filesize ≤ ulongMax) : c'.req.ranges = [⟨0, c'.req.filesize - 1⟩] := by
  obtain ⟨hpos, hfile, hranges, -⟩ := rangesFixup_eq_true h
  rw [hranges, hfile, hwhole]
  have hfix : rangeFixup c.req.filesize ⟨0, ulongMax⟩ = some ⟨0, c.req.filesize - 1⟩ := by
    have hstop : ulongMax = uintMax ∨ c.req.filesize ≤ ulongMax := Or.inr hsize
    have hstart : ¬0 = ulongMax := by decide
    simp only [rangeFixup]
    rw [if_pos hstop, if_neg hstart, if_neg hstart, if_neg]
    simp
  rw [List.filterMap_cons_some hfix, List.filterMap_nil]

/-! ### The exact condition -/

lemma simpleItoa_ne_nil (i : ℕ) : simpleItoa i ≠ [] := by
  rw [simpleItoa_eq]
  exact numeral_ne_nil _

lemma printContentLength_writes {c : Conn}
    (hfit : (printContentLength c).req.status.code ≤ ReqStatus.done.code) :
    writes c (printContentLength c)
      = [str "Content-Length: ", simpleItoa c.req.filesize, crlf] := by
  have heq : printContentLength c
      = reqWrites [str "Content-Length: ", simpleItoa c.req.filesize, crlf] c := by
    rw [printContentLength, reqWrites, List.foldl_cons, List.foldl_cons, List.foldl_cons,
      List.foldl_nil]
  rw [heq] at hfit ⊢
  refine writes_reqWrites ?_ hfit
  simp [str, crlf, simpleItoa_ne_nil]

lemma printRangeLength_writes {c : Conn} {range : Range} {rest : List Range}
    (hranges : c.req.ranges = range :: rest)
    (hfit : (printRangeLength c).req.status.code ≤ ReqStatus.done.code) :
    writes c (printRangeLength c)
      = [str "Content-Length: ", simpleItoa range.bytes, crlf] := by
  have hhead : c.req.ranges.headD ⟨0, 0⟩ = range := by rw [hranges, List.headD_cons]
  have heq : printRangeLength c
      = reqWrites [str "Content-Length: ", simpleItoa range.bytes, crlf] c := by
    rw [printRangeLength, hhead, reqWrites, List.foldl_cons, List.foldl_cons, List.foldl_cons,
      List.foldl_nil]
  rw [heq] at hfit ⊢
  refine writes_reqWrites ?_ hfit
  simp [str, crlf, simpleItoa_ne_nil]

/-- The texts of `print_content_range`. -/
def contentRangeTexts (range : Range) (filesize : ℕ) : List Bytes :=
  [str "Content-Range: bytes ", simpleItoa range.start, str "-", simpleItoa range.stop,
    str "/", simpleItoa filesize, crlf]

lemma printContentRange_eq {c : Conn} {range : Range} {rest : List Range}
    (hranges : c.req.ranges = range :: rest) :
    printContentRange c = reqWrites (contentRangeTexts range c.req.filesize) c := by
  have hhead : c.req.ranges.headD ⟨0, 0⟩ = range := by rw [hranges, List.headD_cons]
  rw [printContentRange, hhead, contentRangeTexts, reqWrites, List.foldl_cons, List.foldl_cons,
    List.foldl_cons, List.foldl_cons, List.foldl_cons, List.foldl_cons, List.foldl_cons,
    List.foldl_nil]

lemma printContentRange_writes {c : Conn} {range : Range} {rest : List Range}
    (hranges : c.req.ranges = range :: rest)
    (hfit : (printContentRange c).req.status.code ≤ ReqStatus.done.code) :
    writes c (printContentRange c) = contentRangeTexts range c.req.filesize := by
  rw [printContentRange_eq hranges] at hfit ⊢
  refine writes_reqWrites ?_ hfit
  simp [contentRangeTexts, str, crlf, simpleItoa_ne_nil]

lemma length_numeral_le {n k : ℕ} (h : n < 10 ^ k) (hpos : 0 < k) : (numeral n).length ≤ k := by
  rw [numeral]
  split_ifs
  · exact hpos
  · rw [List.length_reverse, List.length_map]
    exact (Nat.digits_length_le_iff (by decide) n).mpr h

lemma length_simpleItoa_le (i : ℕ) : (simpleItoa i).length ≤ 10 := by
  rw [simpleItoa_eq]
  exact length_numeral_le (by omega) (by decide)

/-- The field fits into an empty buffer. -/
lemma length_contentRangeTexts_le (range : Range) (filesize : ℕ) :
    (contentRangeTexts range filesize).flatten.length ≤ bufferSize := by
  have h₁ := length_simpleItoa_le range.start
  have h₂ := length_simpleItoa_le range.stop
  have h₃ := length_simpleItoa_le filesize
  simp only [contentRangeTexts, List.flatten_cons, List.flatten_nil, List.length_append,
    List.length_nil, bufferSize, str, crlf, List.length_map, String.length_toList]
  have : "Content-Range: bytes ".length = 21 ∧ "-".length = 1 ∧ "/".length = 1 ∧
    "\r\n".length = 2 := by decide
  omega

/-- **Length headers**: for ranges that `ranges_fixup` has accepted, the numbers of
`Content-Length` and `Content-Range` are right exactly when the size of the file fits into
an `unsigned int`. -/
theorem length_headers_exact_iff (cfg : Config) (env : Env) (c c' : Conn)
    (h : rangesFixup cfg env c = (true, c')) :
    LengthsExact c'.req ↔ c'.req.filesize < 2 ^ 32 := by
  obtain ⟨hpos, hfile, hranges, hne⟩ := rangesFixup_eq_true h
  have hinside : ∀ range ∈ c'.req.ranges,
      range.start ≤ range.stop ∧ range.stop < c'.req.filesize := by
    intro range hmem
    rw [hranges] at hmem
    obtain ⟨range', -, hfix⟩ := List.mem_filterMap.mp hmem
    rw [hfile]
    exact rangeFixup_inside hpos hfix
  constructor
  · intro hexact
    obtain ⟨range, rest, hcons⟩ := List.exists_cons_of_ne_nil hne
    -- the size is written in full behind the slash of `Content-Range`
    obtain ⟨d, hd, hdfile, hdstatus, hdend⟩ : ∃ d : Conn, d.req.ranges = c'.req.ranges ∧
        d.req.filesize = c'.req.filesize ∧ d.req.status = .write ∧ d.req.bufferEnd = 0 :=
      ⟨{ req := { c'.req with status := .write, bufferEnd := 0 } }, rfl, rfl, rfl, rfl⟩
    have hfit : (printContentRange d).req.status.code ≤ ReqStatus.done.code := by
      rw [printContentRange_eq (hd.trans hcons), reqWrites_status, hdstatus]
      · decide
      · rw [hdend, Nat.zero_add]
        exact length_contentRangeTexts_le _ _
    have htexts := hexact.part d hd hdfile hfit range rest hcons
    rw [printContentRange_writes (hd.trans hcons) hfit, hdfile, contentRangeTexts] at htexts
    simp only [List.cons.injEq] at htexts
    exact (simpleItoa_eq_numeral_iff _).mp htexts.2.2.2.2.2.1
  · intro hsmall
    refine ⟨?_, ?_, ?_⟩
    · intro d hd hdfile hfit hwhole
      rw [printContentLength_writes hfit, hdfile, (simpleItoa_eq_numeral_iff _).mpr hsmall]
      have hbody : bodyLength c'.req = c'.req.filesize := by
        rw [bodyLength, hwhole, List.map_singleton, List.sum_singleton, Range.length]
        dsimp only
        omega
      rw [hbody]
    · intro d hd hdfile hfit range hsingle
      obtain ⟨hle, hlt⟩ := hinside range (by rw [hsingle]; exact List.mem_singleton_self _)
      have hbytes : range.bytes = range.length := by
        rw [Range.bytes, Range.length]
        omega
      have hlength : range.length < 2 ^ 32 := by
        rw [Range.length]
        omega
      rw [printRangeLength_writes (hd.trans hsingle) hfit, hbytes,
        (simpleItoa_eq_numeral_iff _).mpr hlength, bodyLength, hsingle, List.map_singleton,
        List.sum_singleton]
    · intro d hd hdfile hfit range rest hcons
      obtain ⟨hle, hlt⟩ := hinside range (by rw [hcons]; exact List.mem_cons_self)
      rw [printContentRange_writes (hd.trans hcons) hfit, hdfile, contentRangeTexts,
        (simpleItoa_eq_numeral_iff _).mpr hsmall,
        (simpleItoa_eq_numeral_iff range.start).mpr (by omega),
        (simpleItoa_eq_numeral_iff range.stop).mpr (by omega)]

/-! ### A file of four gigabytes -/

/-- A request for a whole file. -/
def wholeRequest (filesize : ℕ) : Conn :=
  { req := { fd := 4, status := .write, filesize := filesize, ranges := [⟨0, ulongMax⟩] } }

/-- The request behind `ranges_fixup`. -/
def wholeFile (filesize : ℕ) : Bool × Conn := rangesFixup {} {} (wholeRequest filesize)

/-- The length of a file of four gigabytes is written as zero. -/
theorem length_headers_wrong :
    (wholeFile (2 ^ 32)).1 = true ∧ ¬LengthsExact (wholeFile (2 ^ 32)).2.req := by
  refine ⟨by decide, fun hexact => ?_⟩
  have hfit : (printContentLength (wholeFile (2 ^ 32)).2).req.status.code
      ≤ ReqStatus.done.code := by decide
  have hwritten : (writes (wholeFile (2 ^ 32)).2 (printContentLength (wholeFile (2 ^ 32)).2))[1]?
      = some (str "0") := by decide
  have hbody : bodyLength (wholeFile (2 ^ 32)).2.req = 2 ^ 32 := by decide
  have hwhole : (wholeFile (2 ^ 32)).2.req.ranges
      = [⟨0, (wholeFile (2 ^ 32)).2.req.filesize - 1⟩] := by decide
  generalize wholeFile (2 ^ 32) = d at hexact hfit hwritten hbody hwhole
  have htexts := hexact.ok d.2 rfl rfl hfit hwhole
  rw [htexts, hbody, List.getElem?_cons_succ, List.getElem?_cons_zero,
    Option.some.injEq] at hwritten
  have hvalue := congrArg numeralValue hwritten
  rw [numeralValue_numeral] at hvalue
  exact absurd hvalue (by decide)

/-- The lengths of a file of a thousand bytes are right. -/
theorem length_headers_of_small : LengthsExact (wholeFile 1000).2.req := by
  have hret : (wholeFile 1000).1 = true := by decide
  refine (length_headers_exact_iff {} {} (wholeRequest 1000) (wholeFile 1000).2 ?_).mpr
    (by decide)
  exact Prod.ext hret rfl

end Yabwf
