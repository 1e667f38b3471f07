import Yabwf.Engines

/-!
Responses with several ranges, on a socket that takes everything.

* `Queues`: a function that only queues text.
* `partTexts`, `multipartBody`: the header of a part, and the parts with the closing
  delimiter.
* `MultiSending`: what is left of the response, with `leftToSend` as a measure.
* `multirange_completes_iff`: the response is complete exactly when what follows the first
  range fits into the buffer behind it, or the first range does not.
-/

namespace Yabwf

open Memory

/-! ### Queueing -/

/-- What a function does that only queues text. -/
structure Queues (c c' : Conn) : Prop where
  req : ∃ st buf be, c'.req = { c.req with status := st, buffer := buf, bufferEnd := be }
  tape : c'.tape = c.tape
  buffered : Buffered c.req → Buffered c'.req

namespace Queues

variable {c c' c'' : Conn}

lemma refl (c : Conn) : Queues c c := ⟨⟨_, _, _, rfl⟩, rfl, id⟩

lemma trans (h : Queues c c') (h' : Queues c' c'') : Queues c c'' := by
  obtain ⟨st, buf, be, hreq⟩ := h.req
  obtain ⟨st', buf', be', hreq'⟩ := h'.req
  refine ⟨⟨st', buf', be', ?_⟩, h'.tape.trans h.tape, h'.buffered ∘ h.buffered⟩
  rw [hreq', hreq]

lemma ite {p : Prop} [Decidable p] {a b : Conn} (h : Queues c a) (h' : Queues c b) :
    Queues c (if p then a else b) := by
  split_ifs
  · exact h
  · exact h'

end Queues

lemma reqWrite_queues (msg : Bytes) (c : Conn) : Queues c (reqWrite msg c) := by
  rw [reqWrite]
  split_ifs with hskip hroom
  · exact Queues.refl c
  · exact ⟨⟨_, _, _, rfl⟩, rfl, fun h => ⟨h.start_le, h.end_le⟩⟩
  · exact ⟨⟨_, _, _, rfl⟩, rfl, fun h => (h.append _ (not_lt.mp hroom)).1⟩

lemma reqWrites_queues (msgs : List Bytes) (c : Conn) : Queues c (reqWrites msgs c) := by
  induction msgs generalizing c with
  | nil => exact Queues.refl c
  | cons m msgs ih => exact (reqWrite_queues m c).trans (ih (reqWrite m c))

lemma note_queues (e : Event) (c : Conn) : Queues c (c.note e) := by
  rw [Conn.note]
  split_ifs
  · exact Queues.refl c
  · exact ⟨⟨_, _, _, rfl⟩, rfl, id⟩

lemma printKaPhrase_queues (cfg : Config) (c : Conn) : Queues c (printKaPhrase cfg c) := by
  rw [printKaPhrase]
  split_ifs
  · exact (((((reqWrite_queues _ _).trans (note_queues _ _)).trans (reqWrite_queues _ _)).trans
      (reqWrite_queues _ _)).trans (reqWrite_queues _ _)).trans (reqWrite_queues _ _)
  · exact reqWrite_queues _ _

lemma statusLine_queues (cfg : Config) (env : Env) (line : String) (c : Conn) :
    Queues c (statusLine cfg env line c) := by
  have hheaders : ∀ c, Queues c (printHttpHeaders cfg env c) := by
    intro c
    rw [printHttpHeaders]
    refine (reqWrite_queues _ _).trans (Queues.trans (Queues.ite (Queues.refl _) ?_)
      ((reqWrite_queues _ _).trans (printKaPhrase_queues cfg _)))
    exact reqWrite_queues _ _
  exact (((reqWrite_queues _ _).trans (reqWrite_queues _ _)).trans (note_queues _ _)).trans
    (hheaders _)

/-- Texts that fit are queued. -/
lemma reqWrites_output {msgs : List Bytes} {c : Conn} (h : Buffered c.req)
    (hlive : c.req.status.code ≤ ReqStatus.done.code)
    (hfit : c.req.bufferEnd + msgs.flatten.length ≤ bufferSize) :
    (reqWrites msgs c).output = c.output ++ msgs.flatten ∧
      (reqWrites msgs c).req.bufferEnd = c.req.bufferEnd + msgs.flatten.length ∧
      (reqWrites msgs c).req.status = c.req.status := by
  induction msgs generalizing c with
  | nil => simp [reqWrites]
  | cons m msgs ih =>
      rw [List.flatten_cons, List.length_append] at hfit
      rw [reqWrites, List.foldl_cons, ← reqWrites, List.flatten_cons, List.length_append,
        ← List.append_assoc, ← Nat.add_assoc]
      by_cases hm : m = []
      · have hskip : reqWrite m c = c := if_pos (Or.inl hm)
        rw [hskip, hm, List.append_nil, List.length_nil, Nat.add_zero]
        exact ih h hlive (by omega)
      · have hput : reqWrite m c = c.append m := by
          rw [reqWrite, if_neg (not_or.mpr ⟨hm, not_lt.mpr hlive⟩), if_neg (by omega)]
        obtain ⟨hbuf, hout⟩ := h.append m (by omega)
        rw [← Nat.add_assoc] at hfit
        rw [hput, ← hout]
        exact ih hbuf hlive hfit

/-- A text that does not fit gives the request up. -/
lemma reqWrites_dead {msgs : List Bytes} {c : Conn}
    (hlive : c.req.status.code ≤ ReqStatus.done.code)
    (hfit : bufferSize < c.req.bufferEnd + msgs.flatten.length)
    (hend : c.req.bufferEnd ≤ bufferSize) : (reqWrites msgs c).req.status = .dead := by
  induction msgs generalizing c with
  | nil =>
      rw [List.flatten_nil, List.length_nil] at hfit
      omega
  | cons m msgs ih =>
      rw [List.flatten_cons, List.length_append] at hfit
      rw [reqWrites, List.foldl_cons, ← reqWrites, reqWrite]
      by_cases hm : m = []
      · rw [if_pos (Or.inl hm)]
        rw [hm, List.length_nil, Nat.zero_add] at hfit
        exact ih hlive hfit hend
      rw [if_neg (not_or.mpr ⟨hm, not_lt.mpr hlive⟩)]
      by_cases hroom : bufferSize < c.req.bufferEnd + m.length
      · have hnow : ReqStatus.done.code < c.die.req.status.code := by
          exact (by decide : ReqStatus.done.code < ReqStatus.dead.code)
        rw [if_pos hroom, reqWrites_of_done_lt hnow]
        rfl
      · rw [if_neg hroom]
        refine ih hlive ?_ (not_lt.mp hroom)
        rwa [← Nat.add_assoc] at hfit

/-! ### The parts -/

/-- The texts of `print_content_type`. -/
def contentTypeTexts (cfg : Config) (uri : Bytes) : List Bytes :=
  [str "Content-Type: ", getMimeType cfg uri] ++
    (match cfg.defaultCharset with
      | some charset =>
          if hasPrefixCase (str "text") (getMimeType cfg uri) then [str "; charset=", charset]
          else []
      | none => []) ++ [crlf]

lemma printContentType_eq (cfg : Config) (c : Conn) :
    printContentType cfg c = reqWrites (contentTypeTexts cfg c.req.requestUri) c := by
  rw [printContentType, contentTypeTexts]
  cases cfg.defaultCharset with
  | none => rfl
  | some charset =>
      dsimp only
      split_ifs <;> rfl

/-- The texts of the header of a part. -/
def partTexts (cfg : Config) (r : Request) (range : Range) : List Bytes :=
  str "\r\n--THIS_STRING_SEPARATES\r\n" :: contentTypeTexts cfg r.requestUri ++
    contentRangeTexts range r.filesize ++ [crlf]

/-- The header of a part. -/
def partHeader (cfg : Config) (r : Request) (range : Range) : Bytes :=
  (partTexts cfg r range).flatten

/-- The delimiter behind the last part. -/
def closingDelimiter : Bytes := str "\r\n--THIS_STRING_SEPARATES--\r\n"

/-- The bytes of a range. -/
def rangeBytes (f : Mem) (range : Range) : Bytes :=
  f.slice range.start (range.stop + 1 - range.start)

/-- What follows the bytes of a range when `ranges` are still to come. -/
def multipartRest (cfg : Config) (r : Request) (f : Mem) (ranges : List Range) : Bytes :=
  ranges.flatMap (fun range => partHeader cfg r range ++ rangeBytes f range) ++ closingDelimiter

lemma reqWrites_append (msgs msgs' : List Bytes) (c : Conn) :
    reqWrites (msgs ++ msgs') c = reqWrites msgs' (reqWrites msgs c) := List.foldl_append

/-- The header of the next part is queued. -/
lemma partHeader_eq (cfg : Config) {c : Conn} {range : Range} {rest : List Range}
    (hnum : 1 < c.req.numranges) (hranges : c.req.ranges = range :: rest) :
    reqWrite crlf (printPartialContentContinue cfg c)
      = reqWrites (partTexts cfg c.req range) c := by
  have hfirst : (reqWrite (str "\r\n--THIS_STRING_SEPARATES\r\n") c).req.requestUri
        = c.req.requestUri := by
    obtain ⟨_, _, _, hreq⟩ := (reqWrite_queues (str "\r\n--THIS_STRING_SEPARATES\r\n") c).req
    rw [hreq]
  have hsecond : ∀ msgs, (reqWrites msgs c).req.ranges = range :: rest ∧
      (reqWrites msgs c).req.filesize = c.req.filesize := by
    intro msgs
    obtain ⟨_, _, _, hreq⟩ := (reqWrites_queues msgs c).req
    rw [hreq]
    exact ⟨hranges, rfl⟩
  have htype : printContentType cfg (reqWrite (str "\r\n--THIS_STRING_SEPARATES\r\n") c)
      = reqWrites (str "\r\n--THIS_STRING_SEPARATES\r\n" ::
        contentTypeTexts cfg c.req.requestUri) c := by
    rw [printContentType_eq, hfirst]
    rfl
  obtain ⟨hrange, hsize⟩ := hsecond (str "\r\n--THIS_STRING_SEPARATES\r\n" ::
    contentTypeTexts cfg c.req.requestUri)
  rw [printPartialContentContinue, if_pos hnum, htype, printContentRange_eq hrange, hsize,
    ← reqWrites_append, partTexts, reqWrites_append _ [crlf]]
  rfl

/-! ### A socket that takes everything -/

/-- The socket takes everything, for at least `k` writes. -/
structure TakesAll (k : ℕ) (t : List WriteResult) : Prop where
  length : k ≤ t.length
  all : ∀ r ∈ t, ∃ n, 2 ^ 32 ≤ n ∧ r = .accept n

lemma TakesAll.mono {k k' : ℕ} {t : List WriteResult} (h : TakesAll k t) (hle : k' ≤ k) :
    TakesAll k' t := ⟨hle.trans h.length, h.all⟩

lemma TakesAll.pop {k : ℕ} {c : Conn} (h : TakesAll (k + 1) c.tape) :
    ∃ n t, 2 ^ 32 ≤ n ∧ c.pop = (.accept n, c.setTape t) ∧ TakesAll k t := by
  obtain ⟨hlen, hall⟩ := h
  rw [Conn.pop]
  cases htape : c.tape with
  | nil =>
      rw [htape, List.length_nil] at hlen
      omega
  | cons r t =>
      rw [htape] at hlen hall
      obtain ⟨n, hn, rfl⟩ := hall r List.mem_cons_self
      rw [List.length_cons] at hlen
      exact ⟨n, t, hn, rfl, by omega, fun r' hr' => hall r' (List.mem_cons_of_mem _ hr')⟩

/-- The buffer has been sent. -/
structure Flushed (k : ℕ) (c c' : Conn) : Prop where
  req : c'.req = { c.req with bufferStart := 0, bufferEnd := 0 }
  tape : TakesAll k c'.tape
  output : c'.output = c.output

lemma Flushed.pending {k : ℕ} {c c' : Conn} (h : Flushed k c c') : c'.req.pending = [] := by
  rw [h.req]
  exact pending_eq_nil rfl

lemma Flushed.buffered {k : ℕ} {c c' : Conn} (h : Flushed k c c') : Buffered c'.req := by
  rw [h.req]
  exact ⟨le_rfl, Nat.zero_le _⟩

lemma Flushed.onWire {k : ℕ} {c c' : Conn} (h : Flushed k c c') :
    onWire c'.trace = c.output := by
  rw [← h.output, Conn.output, h.pending, List.append_nil]

lemma Request.eq_emptied {r : Request} (hs : r.bufferStart = 0) (he : r.bufferEnd = 0) :
    r = { r with bufferStart := 0, bufferEnd := 0 } := by
  cases r
  dsimp only at hs he
  subst hs he
  rfl

section

variable {k : ℕ} {c : Conn}

/-- `req_flush` sends the whole buffer. -/
lemma reqFlush_all (h : Buffered c.req) (hlive : c.req.status.code ≤ ReqStatus.done.code)
    (htape : TakesAll (k + 1) c.tape) :
    (reqFlush c).1 = 0 ∧ Flushed k c (reqFlush c).2 := by
  have hle := h.start_le
  have hend := h.end_le
  rw [bufferSize] at hend
  have hsize : (c.req.bufferEnd + 2 ^ 32 - c.req.bufferStart) % 2 ^ 32
      = c.req.bufferEnd - c.req.bufferStart := by omega
  obtain ⟨-, hout⟩ : Buffered (reqFlush c).2.req ∧ (reqFlush c).2.output = c.output := by
    refine h.reqFlush ?_
    rcases reqFlush_cases c with ⟨-, hwhy⟩ | ⟨t, -, -, heq⟩ | ⟨t, es, s, e, -, heq⟩
    · obtain ⟨n, t, -, hpop, -⟩ := htape.pop
      rw [hpop] at hwhy
      rcases hwhy with hwhy | ⟨-, hwhy | hwhy⟩
      · omega
      · cases hwhy
      · cases hwhy
    · rw [heq]
      simp
    · rw [heq]
      dsimp only
      omega
  unfold reqFlush at hout ⊢
  rw [hsize] at hout ⊢
  dsimp only at hout ⊢
  rw [if_neg (not_lt.mpr hlive)] at hout ⊢
  by_cases hzero : c.req.bufferEnd - c.req.bufferStart = 0
  · have heq : c.req.bufferStart = c.req.bufferEnd := by omega
    rw [if_pos hzero, flushDone] at hout ⊢
    dsimp only at hout ⊢
    rw [if_pos heq] at hout ⊢
    exact ⟨rfl, rfl, htape.mono (Nat.le_succ k), hout⟩
  · obtain ⟨n, t, hn, hpop, htape'⟩ := htape.pop
    have hall : min n (c.req.bufferEnd - c.req.bufferStart)
        = c.req.bufferEnd - c.req.bufferStart := min_eq_right (by omega)
    rw [if_neg hzero, hpop] at hout ⊢
    dsimp only at hout ⊢
    rw [hall, flushDone] at hout ⊢
    have heq : c.req.bufferStart + (c.req.bufferEnd - c.req.bufferStart) = c.req.bufferEnd := by
      omega
    have hdone : (((c.setTape t).upd fun r => { r with
        bufferStart := r.bufferStart + (c.req.bufferEnd - c.req.bufferStart) }).emit
          (.flushed ((c.setTape t).req.buffer.slice (c.setTape t).req.bufferStart
            (c.req.bufferEnd - c.req.bufferStart)))).req.bufferStart
        = (((c.setTape t).upd fun r => { r with
          bufferStart := r.bufferStart + (c.req.bufferEnd - c.req.bufferStart) }).emit
            (.flushed ((c.setTape t).req.buffer.slice (c.setTape t).req.bufferStart
              (c.req.bufferEnd - c.req.bufferStart)))).req.bufferEnd := heq
    dsimp only at hout ⊢
    rw [if_pos hdone] at hout ⊢
    exact ⟨rfl, rfl, htape', hout⟩

/-- The flush in front of the switch sends the whole buffer. -/
lemma flushFirst_all (h : Buffered c.req) (hlive : c.req.status.code ≤ ReqStatus.done.code)
    (htape : TakesAll (k + 1) c.tape) :
    ∃ d, flushFirst c = (1, d) ∧ Flushed k c d := by
  obtain ⟨hret, hflushed⟩ := reqFlush_all h hlive htape
  rw [flushFirst]
  by_cases hbuf : c.req.bufferEnd ≠ 0 ∧ c.req.status.code < ReqStatus.timedOut.code
  · rw [if_pos hbuf]
    generalize reqFlush c = res at hret hflushed
    obtain ⟨retval, d⟩ := res
    dsimp only at hret hflushed ⊢
    rw [hret, if_neg (by simp), if_pos le_rfl]
    exact ⟨d, rfl, hflushed⟩
  · rw [if_neg hbuf]
    have hend : c.req.bufferEnd = 0 := by
      by_contra hne
      refine hbuf ⟨hne, lt_of_le_of_lt hlive ?_⟩
      simp [ReqStatus.code]
    have hstart : c.req.bufferStart = 0 := Nat.le_zero.mp (hend ▸ h.start_le)
    exact ⟨c, rfl, Request.eq_emptied hstart hend, htape.mono (Nat.le_succ k), rfl⟩

end

/-! ### What is left to send -/

/-- A range as `ranges_fixup` leaves it. -/
def RangeOk (range : Range) : Prop := range.start ≤ range.stop ∧ range.stop < 2 ^ 31

/-- What goes behind the bytes of a range. -/
def nextText (cfg : Config) (r : Request) : List Range → Bytes
  | [] => closingDelimiter
  | range :: _ => partHeader cfg r range

lemma nextText_nil (cfg : Config) (r : Request) : nextText cfg r [] = closingDelimiter := rfl

lemma nextText_cons (cfg : Config) (r : Request) (range : Range) (rest : List Range) :
    nextText cfg r (range :: rest) = partHeader cfg r range := rfl

/-- What stays the same while the ranges are sent. -/
structure Multipart (cfg : Config) (r₀ : Request) (f : Mem) (rest : List Range) (c : Conn) :
    Prop where
  buffered : Buffered c.req
  method : c.req.method = .get
  response : c.req.responseStatus = 206
  many : 1 < c.req.numranges
  status : c.req.status = .write
  mem : c.req.dataMem = some f
  uri : c.req.requestUri = r₀.requestUri
  size : c.req.filesize = r₀.filesize
  ok : ∀ range ∈ rest, RangeOk range
  short : ∀ range ∈ rest, (partHeader cfg r₀ range).length ≤ 256

/-- The bytes of a range are out, and those of `rest` are to come. -/
structure Between (cfg : Config) (r₀ : Request) (f : Mem) (T : Bytes) (rest : List Range)
    (c : Conn) : Prop extends Multipart cfg r₀ f rest c where
  ranges : c.req.ranges.tail = rest
  text : T = c.output ++ multipartRest cfg r₀ f rest

/-- The first range is being sent, and those of `rest` are to come. -/
structure MultiSending (cfg : Config) (r₀ : Request) (f : Mem) (T : Bytes) (range : Range)
    (rest : List Range) (c : Conn) : Prop extends Multipart cfg r₀ f rest c where
  ranges : c.req.ranges = range :: rest
  first : RangeOk range
  text : T = c.output ++ rangeBytes f range ++ multipartRest cfg r₀ f rest

/-- Everything is out or queued. -/
structure MultiDone (T : Bytes) (c : Conn) : Prop where
  buffered : Buffered c.req
  status : c.req.status = .done
  text : c.output = T

section

variable {cfg : Config} {r₀ : Request} {f : Mem} {T : Bytes} {range : Range} {rest : List Range}
  {c : Conn}

lemma Multipart.congr (h : Multipart cfg r₀ f rest c) {c' : Conn} (hbuf : Buffered c'.req)
    (hreq : ∃ ka rg b bs be bw, c'.req = { c.req with
      keepalive := ka, ranges := rg, buffer := b, bufferStart := bs, bufferEnd := be
      bytesWritten := bw }) : Multipart cfg r₀ f rest c' := by
  obtain ⟨ka, rg, b, bs, be, bw, hreq⟩ := hreq
  refine ⟨hbuf, ?_, ?_, ?_, ?_, ?_, ?_, ?_, h.ok, h.short⟩ <;> rw [hreq]
  · exact h.method
  · exact h.response
  · exact h.many
  · exact h.status
  · exact h.mem
  · exact h.uri
  · exact h.size

lemma partHeader_congr {r r' : Request} (huri : r'.requestUri = r.requestUri)
    (hsize : r'.filesize = r.filesize) : partHeader cfg r' range = partHeader cfg r range := by
  rw [partHeader, partHeader, partTexts, partTexts, huri, hsize]

/-- The request behind `ranges_pop` in `complete_response`. -/
def Conn.popRange (c : Conn) : Conn := c.upd fun r => { r with ranges := r.ranges.tail }

lemma Multipart.of_queues (h : Multipart cfg r₀ f rest c) {d : Conn} (hq : Queues c.popRange d)
    (hstatus : d.req.status = .write) : Multipart cfg r₀ f rest d := by
  obtain ⟨st, buf, be, hreq⟩ := hq.req
  refine ⟨hq.buffered ⟨h.buffered.start_le, h.buffered.end_le⟩, ?_, ?_, ?_, hstatus, ?_, ?_, ?_,
    h.ok, h.short⟩ <;> rw [hreq]
  · exact h.method
  · exact h.response
  · exact h.many
  · exact h.mem
  · exact h.uri
  · exact h.size

lemma Between.completeResponse_eq (h : Between cfg r₀ f T rest c) :
    completeResponse cfg c =
      if rest ≠ [] then (1, reqWrite crlf (printPartialContentContinue cfg c.popRange))
      else (1, (reqFlush ((printPartialContentDone c.popRange).setStatus .done)).2) := by
  have hranges : c.popRange.req.ranges = rest := h.ranges
  rw [completeResponse, ← hranges]
  exact if_pos ⟨h.response, h.many⟩

/-- The next part, or the end of the response. -/
lemma Between.completes (h : Between cfg r₀ f T rest c)
    (hfit : c.req.bufferEnd + (nextText cfg r₀ rest).length ≤ bufferSize)
    {k : ℕ} (htape : TakesAll (k + 1) c.tape) :
    (completeResponse cfg c).1 = 1 ∧
      ((∃ range rest', rest = range :: rest' ∧
          MultiSending cfg r₀ f T range rest' (completeResponse cfg c).2) ∨
        (rest = [] ∧ MultiDone T (completeResponse cfg c).2)) := by
  have hbuf : Buffered c.popRange.req := ⟨h.buffered.start_le, h.buffered.end_le⟩
  have hend : c.popRange.req.bufferEnd = c.req.bufferEnd := rfl
  have hranges : c.popRange.req.ranges = rest := h.ranges
  have hlive : c.popRange.req.status.code ≤ ReqStatus.done.code := by
    have hstatus : c.popRange.req.status = .write := h.status
    rw [hstatus]
    simp [ReqStatus.code]
  rw [h.completeResponse_eq]
  cases rest with
  | nil =>
      rw [if_neg (not_not_intro rfl)]
      refine ⟨rfl, Or.inr ⟨rfl, ?_⟩⟩
      have heq : printPartialContentDone c.popRange
          = reqWrites [closingDelimiter] c.popRange := by
        rw [printPartialContentDone, closingDelimiter, reqWrites, List.foldl_cons, List.foldl_nil]
      have hlen : c.popRange.req.bufferEnd + [closingDelimiter].flatten.length ≤ bufferSize := by
        rwa [List.flatten_singleton, hend, ← nextText_nil cfg r₀]
      obtain ⟨hout, -, -⟩ := reqWrites_output hbuf hlive hlen
      have hqueues := reqWrites_queues [closingDelimiter] c.popRange
      rw [heq]
      rw [List.flatten_singleton] at hout
      generalize reqWrites [closingDelimiter] c.popRange = d at hout hqueues
      obtain ⟨hstart_le, hend_le⟩ := hqueues.buffered hbuf
      have htape' : TakesAll (k + 1) (d.setStatus .done).tape := by
        rw [Conn.setStatus, Conn.upd_tape, hqueues.tape]
        exact htape
      obtain ⟨-, hflushed⟩ :=
        reqFlush_all (c := d.setStatus .done) ⟨hstart_le, hend_le⟩ le_rfl htape'
      have hstatus : (reqFlush (d.setStatus .done)).2.req.status = .done := by
        rw [hflushed.req]
        rfl
      have htext : (reqFlush (d.setStatus .done)).2.output = T := by
        rw [hflushed.output, h.text, multipartRest, List.flatMap_nil, List.nil_append]
        exact hout
      rw [snd_mk]
      exact ⟨hflushed.buffered, hstatus, htext⟩
  | cons range rest' =>
      rw [if_pos (List.cons_ne_nil _ _)]
      refine ⟨rfl, Or.inl ⟨range, rest', rfl, ?_⟩⟩
      have heq := partHeader_eq (c := c.popRange) cfg h.many hranges
      have hheader : (partTexts cfg c.popRange.req range).flatten = partHeader cfg r₀ range :=
        partHeader_congr h.uri h.size
      have hlen : c.popRange.req.bufferEnd + (partTexts cfg c.popRange.req range).flatten.length
          ≤ bufferSize := by
        rwa [hheader, hend, ← nextText_cons cfg r₀ range rest']
      obtain ⟨hout, -, hsame⟩ := reqWrites_output hbuf hlive hlen
      have hqueues := reqWrites_queues (partTexts cfg c.popRange.req range) c.popRange
      have hnext : (reqWrites (partTexts cfg c.popRange.req range) c.popRange).req.ranges
          = range :: rest' := by
        obtain ⟨st, buf, be, hreq⟩ := hqueues.req
        rw [hreq]
        exact hranges
      rw [hheader] at hout
      rw [heq]
      generalize reqWrites (partTexts cfg c.popRange.req range) c.popRange = d
        at hout hsame hqueues hnext
      have hbase : Multipart cfg r₀ f rest' c :=
        ⟨h.buffered, h.method, h.response, h.many, h.status, h.mem, h.uri, h.size,
          fun r hr => h.ok r (List.mem_cons_of_mem _ hr),
          fun r hr => h.short r (List.mem_cons_of_mem _ hr)⟩
      refine ⟨hbase.of_queues hqueues (hsame.trans h.status), hnext,
        h.ok range List.mem_cons_self, ?_⟩
      have hpopped : c.popRange.output = c.output := rfl
      rw [hout, hpopped, h.text, multipartRest, multipartRest, List.flatMap_cons]
      simp only [List.append_assoc]

/-- What does not fit is lost: the next part with the request, the closing delimiter alone. -/
lemma Between.overflows (h : Between cfg r₀ f T rest c)
    (hfull : bufferSize < c.req.bufferEnd + (nextText cfg r₀ rest).length)
    {k : ℕ} (htape : TakesAll (k + 1) c.tape) :
    (completeResponse cfg c).1 = 1 ∧ ((completeResponse cfg c).2.req.status = .dead ∨
      ∃ T', T'.length < T.length ∧ MultiDone T' (completeResponse cfg c).2) := by
  have hbuf : Buffered c.popRange.req := ⟨h.buffered.start_le, h.buffered.end_le⟩
  have hend : c.popRange.req.bufferEnd = c.req.bufferEnd := rfl
  have hranges : c.popRange.req.ranges = rest := h.ranges
  have hlive : c.popRange.req.status.code ≤ ReqStatus.done.code := by
    have hstatus : c.popRange.req.status = .write := h.status
    rw [hstatus]
    simp [ReqStatus.code]
  rw [h.completeResponse_eq]
  cases rest with
  | nil =>
      rw [nextText_nil] at hfull
      rw [if_neg (not_not_intro rfl), printPartialContentDone, ← closingDelimiter]
      have hskip : reqWrite closingDelimiter c.popRange = c.popRange.die := by
        have hsome : closingDelimiter ≠ [] := by
          intro hnil
          rw [hnil, List.length_nil] at hfull
          have hle := h.buffered.end_le
          omega
        rw [reqWrite, if_neg (not_or.mpr ⟨hsome, not_lt.mpr hlive⟩), hend, if_pos hfull]
      rw [hskip]
      have hdone : Buffered (c.popRange.die.setStatus .done).req :=
        ⟨hbuf.start_le, hbuf.end_le⟩
      have htape' : TakesAll (k + 1) (c.popRange.die.setStatus .done).tape := htape
      obtain ⟨-, hflushed⟩ := reqFlush_all hdone le_rfl htape'
      have hstatus : (reqFlush (c.popRange.die.setStatus .done)).2.req.status = .done := by
        rw [hflushed.req]
        rfl
      have hlength : c.output.length < T.length := by
        rw [h.text, multipartRest, List.flatMap_nil, List.nil_append, List.length_append]
        have hle := h.buffered.end_le
        omega
      have hout : (c.popRange.die.setStatus .done).output = c.output := by
        have hwire : onWire (c.trace ++ [.died]) = onWire c.trace := by
          simp [onWire, Event.onWire]
        rw [Conn.output, Conn.output, ← hwire]
        rfl
      rw [snd_mk]
      exact ⟨rfl, Or.inr ⟨c.output, hlength, hflushed.buffered, hstatus,
        hflushed.output.trans hout⟩⟩
  | cons range rest' =>
      rw [nextText_cons] at hfull
      rw [if_pos (List.cons_ne_nil _ _)]
      refine ⟨rfl, Or.inl ?_⟩
      have heq := partHeader_eq (c := c.popRange) cfg h.many hranges
      have hheader : (partTexts cfg c.popRange.req range).flatten = partHeader cfg r₀ range :=
        partHeader_congr h.uri h.size
      rw [snd_mk, heq]
      refine reqWrites_dead hlive ?_ hbuf.end_le
      rwa [hheader, hend]

/-- How much of the first range is left. -/
lemma MultiSending.rangeLength_eq (h : MultiSending cfg r₀ f T range rest c) :
    c.req.rangeLength = range.stop + 1 - range.start := by
  obtain ⟨hle, hlt⟩ := h.first
  rw [Request.rangeLength, h.ranges]
  dsimp only [List.headD_cons]
  omega

/-- `n` more bytes of the first range are out. -/
lemma MultiSending.moves (h : MultiSending cfg r₀ f T range rest c) {n : ℕ}
    (hn : n ≤ range.stop + 1 - range.start) {d : Conn} (hbuf : Buffered d.req)
    (hout : d.output = c.output ++ f.slice range.start n)
    (hreq : ∃ b bs be bw, d.req = { c.req.advance n with
      buffer := b, bufferStart := bs, bufferEnd := be, bytesWritten := bw }) :
    (n < range.stop + 1 - range.start → d.req.rangeLength ≠ 0 ∧
      MultiSending cfg r₀ f T ⟨range.start + n, range.stop⟩ rest d) ∧
    (n = range.stop + 1 - range.start → d.req.rangeLength = 0 ∧ Between cfg r₀ f T rest d) := by
  obtain ⟨hle, hlt⟩ := h.first
  have hmod : (range.start + n) % 2 ^ 64 = range.start + n := by omega
  obtain ⟨b, bs, be, bw, hreq⟩ := hreq
  rw [Request.advance, h.ranges] at hreq
  dsimp only at hreq
  rw [hmod] at hreq
  have hbase : Multipart cfg r₀ f rest d :=
    h.toMultipart.congr hbuf ⟨c.req.keepalive, _, b, bs, be, bw, hreq⟩
  have hranges : d.req.ranges = ⟨range.start + n, range.stop⟩ :: rest := by rw [hreq]
  have hlength : d.req.rangeLength = (range.stop + 2 ^ 64 - (range.start + n) + 1) % 2 ^ 64 := by
    rw [Request.rangeLength, hranges, List.headD_cons]
  refine ⟨fun hless => ⟨by rw [hlength]; omega, ?_⟩, fun hall => ⟨by rw [hlength]; omega, ?_⟩⟩
  · refine ⟨hbase, hranges, ⟨by dsimp only; omega, hlt⟩, ?_⟩
    have hsplit : range.stop + 1 - range.start = n + (range.stop + 1 - (range.start + n)) := by
      omega
    rw [h.text, hout, rangeBytes, rangeBytes, hsplit, Mem.slice_append]
    simp only [List.append_assoc]
  · refine ⟨hbase, by rw [hranges, List.tail_cons], ?_⟩
    rw [h.text, hout, rangeBytes, hall]

/-- `SQUASH_KA` does not matter. -/
lemma MultiSending.squash (h : MultiSending cfg r₀ f T range rest c) (sigterm : Bool) :
    MultiSending cfg r₀ f T range rest (if sigterm = true then c.squashKa else c) := by
  split_ifs
  · refine ⟨h.toMultipart.congr ⟨h.buffered.start_le, h.buffered.end_le⟩
      ⟨.stopped, _, _, _, _, _, rfl⟩, h.ranges, h.first, h.text⟩
  · exact h

lemma MultiDone.squash (h : MultiDone T c) (sigterm : Bool) :
    MultiDone T (if sigterm = true then c.squashKa else c) := by
  split_ifs
  · exact ⟨⟨h.buffered.start_le, h.buffered.end_le⟩, h.status, h.text⟩
  · exact h

/-- How much is left to send, with one for the header of each part. -/
def leftToSend (ranges : List Range) : ℕ :=
  (ranges.map fun range => range.stop + 2 - range.start).sum

/-- What a visit leads to. -/
def MultiNext (cfg : Config) (r₀ : Request) (f : Mem) (T : Bytes) (left : ℕ) (c : Conn) : Prop :=
  (∃ range rest, MultiSending cfg r₀ f T range rest c ∧ leftToSend (range :: rest) < left) ∨
    MultiDone T c

lemma MultiNext.squash {left : ℕ} (h : MultiNext cfg r₀ f T left c) (sigterm : Bool) :
    MultiNext cfg r₀ f T left (if sigterm = true then c.squashKa else c) := by
  rcases h with ⟨range, rest, hsending, hless⟩ | hdone
  · exact Or.inl ⟨range, rest, hsending.squash sigterm, hless⟩
  · exact Or.inr (hdone.squash sigterm)

/-- The next part is shorter than the buffer. -/
lemma Between.nextText_le (h : Between cfg r₀ f T rest c) :
    (nextText cfg r₀ rest).length ≤ bufferSize := by
  have hclosing : closingDelimiter.length ≤ bufferSize := by
    rw [closingDelimiter, str, List.length_map, String.length_toList]
    decide
  cases rest with
  | nil => rwa [nextText_nil]
  | cons range rest' =>
      rw [nextText_cons]
      exact (h.short range List.mem_cons_self).trans (by simp [bufferSize])

/-- `process_get` on an empty buffer. -/
lemma processGet_multi {env : Env} {k : ℕ} (h : MultiSending cfg r₀ f T range rest c)
    (hempty : c.req.bufferEnd = 0) (hbus : env.sigbus = false) (hsize : 0 < cfg.systemBufsize)
    (htape : TakesAll (k + 2) c.tape) :
    (processGet cfg env c).1 = 1 ∧
      MultiNext cfg r₀ f T (leftToSend (range :: rest)) (processGet cfg env c).2 := by
  obtain ⟨hle, hlt⟩ := h.first
  obtain ⟨n, t, hn, hpop, htape'⟩ := htape.pop
  have hlength := h.rangeLength_eq
  have hmethod : c.req.method ≠ .head := by
    rw [h.method]
    simp
  have hm : ∃ m, min n (min (c.req.rangeLength % 2 ^ 32) cfg.systemBufsize) = m ∧ 1 ≤ m ∧
      m ≤ range.stop + 1 - range.start := by
    refine ⟨_, rfl, ?_, ?_⟩ <;> rw [hlength] <;> omega
  obtain ⟨m, hm, hpos, hall⟩ := hm
  have hbs : (c.req.dataMem.getD fun _ => 0).slice (c.req.ranges.headD ⟨0, 0⟩).start m
      = f.slice range.start m := by
    rw [h.mem, h.ranges, Option.getD_some, List.headD_cons]
  rw [processGet_accept hmethod hbus hpop hm hbs]
  have hstart : (c.setTape t).req.bufferEnd = 0 := hempty
  obtain ⟨hbuf, hout⟩ := Buffered.wrote (c := c.setTape t)
    h.buffered (f.slice range.start m) (pending_eq_nil hstart)
  have hfinal : ((c.setTape t).wrote (f.slice range.start m)).req.bufferEnd = 0 ∧
      ((c.setTape t).wrote (f.slice range.start m)).tape = t := by
    simp only [Conn.wrote, Conn.sent, Conn.setTape, Conn.upd_req, Conn.emit_req, Request.advance,
      h.ranges]
    exact ⟨hempty, rfl⟩
  have hreq : ∃ b bs be bw, ((c.setTape t).wrote (f.slice range.start m)).req
      = { c.req.advance m with
        buffer := b, bufferStart := bs, bufferEnd := be, bytesWritten := bw } := by
    simp only [Conn.wrote, Conn.sent, Conn.setTape, Conn.upd_req, Conn.emit_req,
      Mem.length_slice, Request.advance, h.ranges]
    exact ⟨_, _, _, _, rfl⟩
  obtain ⟨hmore, hlast⟩ := h.moves hall hbuf hout hreq
  generalize (c.setTape t).wrote (f.slice range.start m) = d at hfinal hmore hlast ⊢
  rcases hall.lt_or_eq with hless | heq
  · obtain ⟨hsome, hnext⟩ := hmore hless
    rw [if_neg hsome]
    refine ⟨rfl, Or.inl ⟨_, _, hnext, ?_⟩⟩
    simp only [leftToSend, List.map_cons, List.sum_cons]
    omega
  · obtain ⟨hzero, hbetween⟩ := hlast heq
    rw [if_pos hzero]
    have hfit : d.req.bufferEnd + (nextText cfg r₀ rest).length ≤ bufferSize := by
      rw [hfinal.1, Nat.zero_add]
      exact hbetween.nextText_le
    have htape'' : TakesAll (k + 1) d.tape := by rwa [hfinal.2]
    obtain ⟨hret, hcase⟩ := hbetween.completes hfit htape''
    refine ⟨hret, ?_⟩
    rcases hcase with ⟨range', rest', hrest, hnext⟩ | ⟨-, hdone⟩
    · refine Or.inl ⟨range', rest', hnext, ?_⟩
      rw [hrest]
      simp only [leftToSend, List.map_cons, List.sum_cons]
      omega
    · exact Or.inr hdone

/-! ### The visits -/

/-- The kernel lets a visit succeed: the socket takes everything, and the mapping is intact. -/
structure Generous (env : Env) : Prop where
  sock : TakesAll 3 env.sock
  sigbus : env.sigbus = false

/-- A visit to a request with ranges to send. -/
lemma serve_multi {env : Env} {d : Service} (h : MultiSending cfg r₀ f T range rest d.conn)
    (hend : d.ended = false) (henv : Generous env) (hsize : 0 < cfg.systemBufsize) :
    (serve cfg d env).ended = false ∧
      MultiNext cfg r₀ f T (leftToSend (range :: rest)) (serve cfg d env).conn := by
  have hlive : ({ d.conn with tape := env.sock } : Conn).req.status.code
      ≤ ReqStatus.done.code := by
    have hstatus : ({ d.conn with tape := env.sock } : Conn).req.status = .write := h.status
    rw [hstatus]
    simp [ReqStatus.code]
  obtain ⟨c, hflush, hflushed⟩ := flushFirst_all (c := { d.conn with tape := env.sock })
    h.buffered hlive henv.sock
  have hreq : c.req = { d.conn.req with bufferStart := 0, bufferEnd := 0 } := hflushed.req
  have hsending : MultiSending cfg r₀ f T range rest c := by
    refine ⟨h.toMultipart.congr hflushed.buffered ⟨_, _, _, _, _, _, hreq⟩, ?_, h.first, ?_⟩
    · rw [hreq]
      exact h.ranges
    · rw [h.text, hflushed.output]
      rfl
  have hempty : c.req.bufferEnd = 0 := by rw [hreq]
  have hstatus : c.req.status = .write := hsending.status
  obtain ⟨hret, hnext⟩ := processGet_multi hsending hempty henv.sigbus hsize hflushed.tape
  have hserve : serve cfg d env =
      { conn := if env.sigterm = true then (processGet cfg env c).2.squashKa
          else (processGet cfg env c).2
        ended := decide ((processGet cfg env c).1 = 0) } := by
    rw [serve, hend, if_neg Bool.false_ne_true]
    dsimp only
    rw [processRequest_of_flush hflush, handleStatus, hstatus]
  rw [hserve, hret]
  exact ⟨by simp, hnext.squash env.sigterm⟩

/-- A visit to a request that has queued everything. -/
lemma serve_done (cfg : Config) {env : Env} {d : Service} (h : MultiDone T d.conn)
    (hend : d.ended = false) (henv : Generous env) :
    (serve cfg d env).ended = true ∧ (serve cfg d env).conn.req.status = .done ∧
      onWire (serve cfg d env).conn.trace = T := by
  have hlive : ({ d.conn with tape := env.sock } : Conn).req.status.code
      ≤ ReqStatus.done.code := by
    have hstatus : ({ d.conn with tape := env.sock } : Conn).req.status = .done := h.status
    rw [hstatus]
  obtain ⟨c, hflush, hflushed⟩ := flushFirst_all (c := { d.conn with tape := env.sock })
    h.buffered hlive henv.sock
  have hstatus : c.req.status = .done := by
    rw [hflushed.req]
    exact h.status
  obtain ⟨hret, hagain⟩ := reqFlush_all hflushed.buffered (hstatus ▸ le_rfl) hflushed.tape
  have hdone : (processDone c).1 = 0 ∧ (processDone c).2 = (reqFlush c).2 := by
    rw [processDone]
    generalize reqFlush c = res at hret
    obtain ⟨retval, e⟩ := res
    dsimp only at hret ⊢
    rw [hret, if_neg (by simp), if_neg (lt_irrefl _)]
    exact ⟨rfl, rfl⟩
  have hserve : serve cfg d env =
      { conn := if env.sigterm = true then (reqFlush c).2.squashKa else (reqFlush c).2
        ended := true } := by
    rw [serve, hend, if_neg Bool.false_ne_true]
    dsimp only
    rw [processRequest_of_flush hflush, handleStatus, hstatus]
    dsimp only
    rw [hdone.1, hdone.2]
    rfl
  have hwire : onWire (reqFlush c).2.trace = T := by
    rw [hagain.onWire, hflushed.output]
    exact h.text
  have hkept : (reqFlush c).2.req.status = .done := by
    rw [hagain.req]
    exact hstatus
  rw [hserve]
  refine ⟨rfl, ?_, ?_⟩
  · dsimp only
    split_ifs
    · exact hkept
    · exact hkept
  · dsimp only
    split_ifs
    · exact hwire
    · exact hwire

lemma serves_ended {d : Service} (hend : d.ended = true) (envs : List Env) :
    Run.runs (serve cfg) d envs = d := by
  induction envs with
  | nil => rfl
  | cons env envs ih =>
      rw [Run.runs_cons, serve, if_pos hend]
      exact ih

/-- The response is complete after some visits. -/
structure Completed (T : Bytes) (d : Service) : Prop where
  ended : d.ended = true
  status : d.conn.req.status = .done
  wire : onWire d.conn.trace = T

lemma serves_done (cfg : Config) {d : Service} (h : MultiDone T d.conn) (hend : d.ended = false)
    {envs : List Env} (hlen : 1 ≤ envs.length) (henvs : ∀ env ∈ envs, Generous env) :
    Completed T (Run.runs (serve cfg) d envs) := by
  cases envs with
  | nil => exact absurd hlen (by simp)
  | cons env envs =>
      obtain ⟨hended, hstatus, hwire⟩ := serve_done cfg h hend
        (henvs env List.mem_cons_self)
      rw [Run.runs_cons, serves_ended hended]
      exact ⟨hended, hstatus, hwire⟩

/-- As many visits as there are bytes and parts left are enough. -/
lemma serves_multi (hsize : 0 < cfg.systemBufsize) {n : ℕ} :
    ∀ {range : Range} {rest : List Range} {d : Service} {envs : List Env},
      MultiSending cfg r₀ f T range rest d.conn → d.ended = false →
      leftToSend (range :: rest) ≤ n → n + 1 ≤ envs.length → (∀ env ∈ envs, Generous env) →
      Completed T (Run.runs (serve cfg) d envs) := by
  induction n with
  | zero =>
      intro range rest d envs h _ hleft
      have hle := h.first.1
      rw [leftToSend, List.map_cons, List.sum_cons] at hleft
      omega
  | succ n ih =>
      intro range rest d envs h hend hleft hlen henvs
      cases envs with
      | nil => exact absurd hlen (by simp)
      | cons env envs =>
          rw [List.length_cons] at hlen
          obtain ⟨hgoes, hnext⟩ := serve_multi h hend (henvs env List.mem_cons_self) hsize
          have henvs' : ∀ env ∈ envs, Generous env :=
            fun env' hmem => henvs env' (List.mem_cons_of_mem _ hmem)
          rw [Run.runs_cons]
          rcases hnext with ⟨range', rest', hsending, hless⟩ | hdone
          · exact ih hsending hgoes (by omega) (by omega) henvs'
          · exact serves_done cfg hdone hgoes (by omega) henvs'

end

/-! ### The beginning -/

/-- `init_get` has mapped the file, and `ranges_fixup` has left `ranges`. -/
def Conn.mapped (fd : ℕ) (st : Stat) (contents : Mem) (ranges : List Range) (c : Conn) : Conn :=
  (c.upd fun r => { r with
    filesize := st.size
    lastModified := st.mtime
    ranges := ranges
    mmapEntry := true
    dataMem := some contents }).emit (.closed fd)

/-- `send_r_partial_content` in front of the header of the first part. -/
def partialTop (cfg : Config) (env : Env) (c : Conn) : Conn :=
  c.setResponse 206 |> statusLine cfg env " 206 Partial Content\r\n" |> printLastModified env
    |> reqWrite (str "Content-Type: multipart/byteranges; boundary=THIS_STRING_SEPARATES\r\n")
    |> reqWrite crlf

/-- A `GET` for several ranges of a small file, of which `range` and `rest` are in it. -/
structure MultirangeGet (cfg : Config) (env : Env) (fd : ℕ) (st : Stat) (contents : Mem)
    (range : Range) (rest : List Range) (c : Conn) : Prop where
  kind : st.kind = .regular
  modified : (c.req.ifModifiedSince.map fun off =>
    env.modifiedSince st.mtime (c.req.streamString off)) ≠ some false
  pos : 0 < st.size
  small : st.size ≤ maxFileMmap
  mmapOk : env.mmapOk = true
  sigbus : env.sigbus = false
  method : c.req.method = .get
  status : c.req.status = .write
  start : c.req.bufferStart = 0
  empty : c.req.bufferEnd = 0
  many : 2 ≤ c.req.numranges
  given : c.req.ranges ≠ []
  survive : c.req.ranges.filterMap (rangeFixup st.size) = range :: rest
  head : (sendRPartialContent cfg env (c.mapped fd st contents (range :: rest))).req.status
    = .write
  head_le : (sendRPartialContent cfg env (c.mapped fd st contents (range :: rest))).req.bufferEnd
    ≤ 1024
  parts : ∀ range' ∈ rest,
    (partHeader cfg (c.mapped fd st contents (range :: rest)).req range').length ≤ 256
  sock : TakesAll 1 c.tape
  bufsize : 0 < cfg.systemBufsize

/-- The request behind `init_get`. -/
def started (cfg : Config) (env : Env) (fd : ℕ) (st : Stat) (contents : Mem) (path : Bytes)
    (c : Conn) : Service :=
  { conn := (serveFile cfg env fd st contents path c).2
    ended := decide ((serveFile cfg env fd st contents path c).1 = 0) }

/-- The whole response: what stands in front of the parts, the parts, and the closing
delimiter. -/
def multipartResponse (cfg : Config) (env : Env) (contents : Mem) (ranges : List Range) (c : Conn) :
    Bytes :=
  (partialTop cfg env c).output ++ multipartRest cfg c.req contents ranges

/-- The first range does not fit behind the head, or what follows it does, too. -/
def FirstFits (headEnd first next : ℕ) : Prop :=
  bufferSize < headEnd + first ∨ headEnd + first + next ≤ bufferSize

section

variable {cfg : Config} {env : Env} {fd : ℕ} {st : Stat} {contents : Mem} {path : Bytes}
  {range : Range} {rest : List Range} {c : Conn}

lemma partialTop_queues (cfg : Config) (env : Env) (c : Conn) :
    Queues (c.setResponse 206) (partialTop cfg env c) :=
  (((statusLine_queues cfg env _ _).trans (reqWrite_queues _ _)).trans (reqWrite_queues _ _)).trans
    (reqWrite_queues _ _)

lemma sendRPartialContent_eq (cfg : Config) (env : Env) (hmany : 1 < c.req.numranges)
    (hranges : c.req.ranges = range :: rest) :
    sendRPartialContent cfg env c
      = reqWrites (partTexts cfg (partialTop cfg env c).req range) (partialTop cfg env c) := by
  have htop := partialTop_queues cfg env c
  have hnum : 1 < (partialTop cfg env c).req.numranges := by
    obtain ⟨_, _, _, hreq⟩ := htop.req
    rw [hreq]
    exact hmany
  have hrange : (partialTop cfg env c).req.ranges = range :: rest := by
    obtain ⟨_, _, _, hreq⟩ := htop.req
    rw [hreq]
    exact hranges
  rw [← partHeader_eq cfg hnum hrange]
  have hcond : 1 < (c.setResponse 206 |> statusLine cfg env " 206 Partial Content\r\n"
      |> printLastModified env).req.numranges := by
    obtain ⟨_, _, _, hreq⟩ := ((statusLine_queues cfg env " 206 Partial Content\r\n"
      (c.setResponse 206)).trans (reqWrite_queues _ _)).req
    rw [printLastModified, hreq]
    exact hmany
  unfold sendRPartialContent
  extract_lets d range' e
  have he : e = partialTop cfg env c := if_pos hcond
  rw [he]

/-- `ranges_fixup` accepts the ranges. -/
lemma rangesFixup_of (hpos : c.req.filesize ≠ 0)
    (h : c.req.ranges.filterMap (rangeFixup c.req.filesize) = range :: rest) :
    rangesFixup cfg env c = (true, c.upd fun r => { r with ranges := range :: rest }) := by
  have hranges : (if c.req.filesize = 0 then []
      else c.req.ranges.filterMap (rangeFixup c.req.filesize)) = range :: rest := by
    rw [if_neg hpos, h]
  unfold rangesFixup
  rw [hranges]
  exact if_neg (List.cons_ne_nil _ _)

namespace MultirangeGet

lemma mapped_eq (h : MultirangeGet cfg env fd st contents range rest c) :
    serveFile cfg env fd st contents path c = fillBuffer cfg env
      ((sendRPartialContent cfg env (c.mapped fd st contents (range :: rest))).emit
        (.served path)) := by
  have hsurvive := h.survive
  have hattach : attachFile env fd contents
      (c.upd fun r =>
        { r with filesize := st.size, lastModified := st.mtime, ranges := range :: rest })
        = c.mapped fd st contents (range :: rest) := by
    rw [attachFile, if_neg]
    · rfl
    · rintro (hbig | hno)
      · exact absurd hbig (not_lt.mpr h.small)
      · rw [h.mmapOk] at hno
        cases hno
  have hfix : rangesFixup cfg env (c.upd fun r => { r with
      filesize := st.size, lastModified := st.mtime }) = (true, c.upd fun r => { r with
        filesize := st.size, lastModified := st.mtime, ranges := range :: rest }) := by
    exact rangesFixup_of (c := c.upd fun r => { r with
      filesize := st.size, lastModified := st.mtime }) (Nat.ne_of_gt h.pos) hsurvive
  have hhead : ∀ d : Conn, d.req.method = .get → d.req.ranges = range :: rest →
      sendFileHeader cfg env path d
        = fillBuffer cfg env ((sendRPartialContent cfg env d).emit (.served path)) := by
    intro d hmethod hranges
    have hget : ¬(sendRPartialContent cfg env d).req.method = .head := by
      rw [(sendRPartialContent_outputs cfg env d).method, hmethod]
      simp
    rw [sendFileHeader, if_neg (by rw [hranges]; exact List.cons_ne_nil _ _)]
    exact if_neg hget
  rw [serveFile, if_neg (not_not_intro h.kind), if_neg h.modified]
  dsimp only
  rw [if_neg (Nat.ne_of_gt h.pos), if_neg (by exact h.given), hfix]
  dsimp only
  rw [hattach]
  exact hhead _ h.method rfl

/-- The head is in the buffer. -/
lemma sending (path : Bytes) (h : MultirangeGet cfg env fd st contents range rest c) :
    MultiSending cfg (c.mapped fd st contents (range :: rest)).req contents
      (multipartResponse cfg env contents (range :: rest)
        (c.mapped fd st contents (range :: rest))) range rest
      ((sendRPartialContent cfg env (c.mapped fd st contents (range :: rest))).emit
        (.served path)) := by
  have hok : ∀ range' ∈ range :: rest, RangeOk range' := by
    intro range' hmem
    rw [← h.survive] at hmem
    obtain ⟨range₀, -, hfix⟩ := List.mem_filterMap.mp hmem
    obtain ⟨hle, hlt⟩ := rangeFixup_inside h.pos hfix
    have hsmall := h.small
    rw [maxFileMmap] at hsmall
    exact ⟨hle, by omega⟩
  have hparts := h.parts
  have hhead := h.head
  have hmethod : (c.mapped fd st contents (range :: rest)).req.method = .get := h.method
  have hmany : 1 < (c.mapped fd st contents (range :: rest)).req.numranges := h.many
  have hranges : (c.mapped fd st contents (range :: rest)).req.ranges = range :: rest := rfl
  have hmem : (c.mapped fd st contents (range :: rest)).req.dataMem = some contents := rfl
  have hbuf : Buffered (c.mapped fd st contents (range :: rest)).req := by
    refine ⟨?_, ?_⟩
    · exact h.start.le.trans (Nat.zero_le _)
    · exact h.empty.le.trans (Nat.zero_le _)
  generalize c.mapped fd st contents (range :: rest) = d at *
  have htop := partialTop_queues cfg env d
  have heq := sendRPartialContent_eq cfg env hmany hranges
  have hbuf' : Buffered (partialTop cfg env d).req :=
    htop.buffered ⟨hbuf.start_le, hbuf.end_le⟩
  have hreq := htop.req
  rw [multipartResponse]
  rw [heq] at hhead ⊢
  generalize partialTop cfg env d = top at *
  obtain ⟨st', buf, be, hreq⟩ := hreq
  have hheader : (partTexts cfg top.req range).flatten = partHeader cfg d.req range :=
    partHeader_congr (by rw [hreq]; rfl) (by rw [hreq]; rfl)
  have hlive : top.req.status.code ≤ ReqStatus.done.code := by
    by_contra hdead
    rw [reqWrites_of_done_lt (not_le.mp hdead)] at hhead
    rw [hhead] at hdead
    exact hdead (by simp [ReqStatus.code])
  have hfit : top.req.bufferEnd + (partTexts cfg top.req range).flatten.length ≤ bufferSize := by
    by_contra hfull
    rw [reqWrites_dead hlive (not_le.mp hfull) hbuf'.end_le] at hhead
    cases hhead
  obtain ⟨hout, -, hsame⟩ := reqWrites_output hbuf' hlive hfit
  have hqueues := reqWrites_queues (partTexts cfg top.req range) top
  rw [hheader] at hout
  generalize reqWrites (partTexts cfg top.req range) top = e at *
  obtain ⟨st'', buf', be', hreq'⟩ := hqueues.req
  have hemit : (e.emit (.served path)).output = e.output := by
    simp [Conn.output, Event.onWire]
  refine ⟨⟨hqueues.buffered hbuf', ?_, ?_, ?_, hhead, ?_, ?_, ?_,
    fun range' hr => hok range' (List.mem_cons_of_mem _ hr), hparts⟩, ?_,
    hok range List.mem_cons_self, ?_⟩
  all_goals try rw [Conn.emit_req, hreq', hreq]
  · exact hmethod
  · rfl
  · exact hmany
  · exact hmem
  · rfl
  · rfl
  · exact hranges
  · rw [hemit, hout, multipartRest, multipartRest, List.flatMap_cons]
    simp only [List.append_assoc]

end MultirangeGet

/-- The end of `init_get` on a mapped file with room in the buffer. -/
lemma fillBuffer_eq {f : Mem} {n w : ℕ} {bs : Bytes} (hmem : c.req.dataMem = some f)
    (hroom : 256 < bufferSize - c.req.bufferEnd) (hbus : env.sigbus = false)
    (hw : c.req.rangeLength % 2 ^ 32 = w) (hn : min (bufferSize - c.req.bufferEnd) w = n)
    (hbs : f.slice (c.req.ranges.headD ⟨0, 0⟩).start n = bs) :
    fillBuffer cfg env c =
      if n = w then completeResponse cfg ((c.append bs).sent n) else (1, (c.append bs).sent n) := by
  rw [fillBuffer, hmem]
  dsimp only
  rw [if_neg (not_le.mpr hroom), if_neg (by rw [hbus]; exact Bool.false_ne_true), hw, hn, hbs]
  rfl

section

variable {r₀ : Request} {f : Mem} {T : Bytes}

/-- What `init_get` copies behind the head. -/
lemma fillBuffer_multi (h : MultiSending cfg r₀ f T range rest c)
    (hend : c.req.bufferEnd ≤ 1024) (hbus : env.sigbus = false) (htape : TakesAll 1 c.tape) :
    (bufferSize < c.req.bufferEnd + (range.stop + 1 - range.start) →
      (fillBuffer cfg env c).1 = 1 ∧ ∃ range',
        MultiSending cfg r₀ f T range' rest (fillBuffer cfg env c).2) ∧
    (c.req.bufferEnd + (range.stop + 1 - range.start) ≤ bufferSize → ∃ d,
      fillBuffer cfg env c = completeResponse cfg d ∧ Between cfg r₀ f T rest d ∧
        d.req.bufferEnd = c.req.bufferEnd + (range.stop + 1 - range.start) ∧
        TakesAll 1 d.tape) := by
  obtain ⟨hle, hlt⟩ := h.first
  have hroom : 256 < bufferSize - c.req.bufferEnd := by
    rw [bufferSize]
    omega
  have hlength := h.rangeLength_eq
  have hw : c.req.rangeLength % 2 ^ 32 = range.stop + 1 - range.start := by
    rw [hlength]
    omega
  have hbs : ∀ n, f.slice (c.req.ranges.headD ⟨0, 0⟩).start n = f.slice range.start n := by
    intro n
    rw [h.ranges, List.headD_cons]
  have hcopy : ∀ n, n ≤ bufferSize - c.req.bufferEnd →
      Buffered ((c.append (f.slice range.start n)).sent n).req ∧
      ((c.append (f.slice range.start n)).sent n).output = c.output ++ f.slice range.start n ∧
      ((c.append (f.slice range.start n)).sent n).req.bufferEnd = c.req.bufferEnd + n ∧
      ∃ b bs be bw, ((c.append (f.slice range.start n)).sent n).req = { c.req.advance n with
        buffer := b, bufferStart := bs, bufferEnd := be, bytesWritten := bw } := by
    intro n hn
    have hbytes : (f.slice range.start n).length = n := Mem.length_slice _ _ _
    have hfit : c.req.bufferEnd + (f.slice range.start n).length ≤ bufferSize := by omega
    obtain ⟨hbuf, hout⟩ := h.buffered.append _ hfit
    refine ⟨?_, ?_, ?_, ?_⟩
    · simp only [Conn.sent, Conn.append, Conn.upd_req, Conn.emit_req, Request.advance, h.ranges]
      exact ⟨hbuf.start_le, hbuf.end_le⟩
    · rw [← hout]
      simp only [Conn.output, Conn.sent, Conn.append, Conn.upd_req, Conn.emit_req, Request.advance,
        h.ranges]
      rfl
    · simp only [Conn.sent, Conn.append, Conn.upd_req, Conn.emit_req, Request.advance, h.ranges,
        hbytes]
    · simp only [Conn.sent, Conn.append, Conn.upd_req, Conn.emit_req, Request.advance, h.ranges]
      exact ⟨_, _, _, _, rfl⟩
  constructor
  · intro hlong
    have hn : min (bufferSize - c.req.bufferEnd) (range.stop + 1 - range.start)
        = bufferSize - c.req.bufferEnd := min_eq_left (by omega)
    have hless : bufferSize - c.req.bufferEnd < range.stop + 1 - range.start := by omega
    obtain ⟨hbuf, hout, -, hreq⟩ := hcopy (bufferSize - c.req.bufferEnd) le_rfl
    rw [fillBuffer_eq h.mem hroom hbus hw hn (hbs _), if_neg hless.ne]
    exact ⟨rfl, _, ((h.moves hless.le hbuf hout hreq).1 hless).2⟩
  · intro hshort
    have hn : min (bufferSize - c.req.bufferEnd) (range.stop + 1 - range.start)
        = range.stop + 1 - range.start := min_eq_right (by omega)
    obtain ⟨hbuf, hout, hend', hreq⟩ := hcopy (range.stop + 1 - range.start) (by omega)
    rw [fillBuffer_eq h.mem hroom hbus hw hn (hbs _), if_pos rfl]
    exact ⟨_, rfl, ((h.moves le_rfl hbuf hout hreq).2 rfl).2, hend', htape⟩

end

/-- The response is complete after enough visits, on a socket that takes everything. -/
def CompletesMultirange (cfg : Config) (env : Env) (fd : ℕ) (st : Stat) (contents : Mem)
    (path : Bytes) (range : Range) (rest : List Range) (c : Conn) : Prop :=
  ∃ n, ∀ envs : List Env, n ≤ envs.length → (∀ env ∈ envs, Generous env) →
    Completed (multipartResponse cfg env contents (range :: rest)
        (c.mapped fd st contents (range :: rest)))
      (Run.runs (serve cfg) (started cfg env fd st contents path c) envs)

/-- A request that has failed stays so. -/
lemma serves_dead {d : Service} (h : d.conn.req.status = .dead) (envs : List Env) :
    (Run.runs (serve cfg) d envs).conn.req.status = .dead := by
  have hstep : ∀ (d : Service) (env : Env), d.conn.req.status = .dead → True →
      (serve cfg d env).conn.req.status = .dead := by
    intro d env h _
    rw [serve]
    split_ifs
    · exact h
    · exact processRequest_of_dead (c := { d.conn with tape := env.sock }) h
  exact Run.runs_invariant hstep envs _ h (Run.allowed_true _ _ _)

/-- Visits that succeed. -/
def generousEnv : Env :=
  { sock := [.accept (2 ^ 32), .accept (2 ^ 32), .accept (2 ^ 32)] }

lemma generousEnv_generous : Generous generousEnv := by
  refine ⟨⟨le_rfl, fun r hr => ⟨2 ^ 32, le_rfl, ?_⟩⟩, rfl⟩
  simpa [generousEnv] using hr

lemma replicate_generous (n : ℕ) : ∀ env ∈ List.replicate n generousEnv, Generous env := by
  intro env hmem
  rw [List.eq_of_mem_replicate hmem]
  exact generousEnv_generous

/-- **Multi-range responses**: on a socket that takes everything, the response to a `GET` for
several ranges of a small file is the head of the response, for every range the header of the
part and the bytes of the range, and the closing delimiter, if and only if the first range does
not fit into the buffer behind the head, or the next header, or the delimiter, fits behind it
as well. -/
theorem multirange_completes_iff {cfg : Config} {env : Env} {fd : ℕ} {st : Stat} {contents : Mem}
    {path : Bytes} {range : Range} {rest : List Range} {c : Conn}
    (h : MultirangeGet cfg env fd st contents range rest c) :
    CompletesMultirange cfg env fd st contents path range rest c ↔
      FirstFits
        (sendRPartialContent cfg env (c.mapped fd st contents (range :: rest))).req.bufferEnd
        (range.stop + 1 - range.start)
        (nextText cfg (c.mapped fd st contents (range :: rest)).req rest).length := by
  have hsending := h.sending path
  have hstart : started cfg env fd st contents path c
      = { conn := (fillBuffer cfg env ((sendRPartialContent cfg env
            (c.mapped fd st contents (range :: rest))).emit (.served path))).2
          ended := decide ((fillBuffer cfg env ((sendRPartialContent cfg env
            (c.mapped fd st contents (range :: rest))).emit (.served path))).1 = 0) } := by
    rw [started, h.mapped_eq]
  have htape : TakesAll 1 ((sendRPartialContent cfg env
      (c.mapped fd st contents (range :: rest))).emit (.served path)).tape := by
    have hmany : 1 < (c.mapped fd st contents (range :: rest)).req.numranges := h.many
    have hqueues := (partialTop_queues cfg env
      (c.mapped fd st contents (range :: rest))).trans (reqWrites_queues (partTexts cfg
        (partialTop cfg env (c.mapped fd st contents (range :: rest))).req range) _)
    rw [← sendRPartialContent_eq cfg env hmany rfl] at hqueues
    rw [Conn.emit_tape, hqueues.tape]
    exact h.sock
  have hend : ((sendRPartialContent cfg env (c.mapped fd st contents (range :: rest))).emit
      (.served path)).req.bufferEnd ≤ 1024 := h.head_le
  rw [CompletesMultirange, hstart]
  have hheadEnd : (sendRPartialContent cfg env
      (c.mapped fd st contents (range :: rest))).req.bufferEnd
        = ((sendRPartialContent cfg env (c.mapped fd st contents (range :: rest))).emit
          (.served path)).req.bufferEnd := rfl
  rw [hheadEnd]
  generalize (sendRPartialContent cfg env (c.mapped fd st contents (range :: rest))).emit
    (.served path) = d at *
  generalize multipartResponse cfg env contents (range :: rest)
    (c.mapped fd st contents (range :: rest)) = T at *
  generalize (c.mapped fd st contents (range :: rest)).req = r₀ at *
  obtain ⟨hlong, hshort⟩ := fillBuffer_multi hsending hend h.sigbus htape
  constructor
  · rintro ⟨n, hall⟩
    by_contra hnot
    rw [FirstFits, not_or, not_lt, not_le] at hnot
    obtain ⟨e, heq, hbetween, hend', htape'⟩ := hshort hnot.1
    rw [heq] at hall
    have hfull : bufferSize < e.req.bufferEnd + (nextText cfg r₀ rest).length := by
      rw [hend']
      exact hnot.2
    obtain ⟨hret, hcase⟩ := hbetween.overflows hfull htape'
    have hdone := hall (List.replicate (n + 1) generousEnv) (by simp) (replicate_generous _)
    rcases hcase with hdead | ⟨T', hless, hnext⟩
    · have hstatus := hdone.status
      rw [serves_dead hdead] at hstatus
      cases hstatus
    · rw [hret] at hdone
      have hother : Completed T' _ := serves_done cfg
        (d := { conn := (completeResponse cfg e).2, ended := decide ((1 : ℤ) = 0) }) hnext rfl
        (by simp) (replicate_generous (n + 1))
      have hsame : T' = T := hother.wire.symm.trans hdone.wire
      rw [hsame] at hless
      exact lt_irrefl _ hless
  · intro hfirst
    have hgo : (fillBuffer cfg env d).1 = 1 ∧
        ((∃ range' rest', MultiSending cfg r₀ contents T range' rest' (fillBuffer cfg env d).2) ∨
          MultiDone T (fillBuffer cfg env d).2) := by
      rcases Nat.lt_or_ge bufferSize (d.req.bufferEnd + (range.stop + 1 - range.start)) with
        hlt | hge
      · obtain ⟨hret, range', hnext⟩ := hlong hlt
        exact ⟨hret, Or.inl ⟨range', rest, hnext⟩⟩
      · obtain ⟨e, heq, hbetween, hend', htape'⟩ := hshort hge
        rw [heq]
        have hfit : e.req.bufferEnd + (nextText cfg r₀ rest).length ≤ bufferSize := by
          rw [hend']
          exact hfirst.resolve_left (not_lt.mpr hge)
        obtain ⟨hret, hcase⟩ := hbetween.completes hfit htape'
        refine ⟨hret, hcase.imp ?_ And.right⟩
        rintro ⟨range', rest', -, hnext⟩
        exact ⟨range', rest', hnext⟩
    obtain ⟨hret, hcase⟩ := hgo
    rw [hret]
    rcases hcase with ⟨range', rest', hnext⟩ | hdone
    · exact ⟨leftToSend (range' :: rest') + 1, fun envs hlen henvs =>
        serves_multi h.bufsize hnext rfl le_rfl hlen henvs⟩
    · exact ⟨1, fun envs hlen henvs => serves_done cfg hdone rfl hlen henvs⟩

end

/-! ### A part whose header does not fit -/

/-- A file of 8000 bytes. -/
def pageStat : Stat := { kind := .regular, size := 8000 }

/-- A request for its bytes up to `n` and for its first byte. -/
def pageRanges (n : ℕ) : Conn where
  req := { fd := 4, method := .get, status := .write, requestUri := str "/a"
           numranges := 2, ranges := [⟨0, n⟩, ⟨0, 0⟩] }
  tape := [.accept (2 ^ 32)]

/-- The file can be mapped. -/
def mappingEnv : Env :=
  { mmapOk := true, rfc822 := fun _ => str "Thu, 01 Jan 1970 00:00:00 GMT" }

/-- The head of the response. -/
def pageHead (n : ℕ) : Conn :=
  sendRPartialContent {} mappingEnv
    ((pageRanges n).mapped 5 pageStat countingFile [⟨0, n⟩, ⟨0, 0⟩])

/-- What is behind the first range. -/
def pageNext (n : ℕ) : Bytes :=
  nextText {} ((pageRanges n).mapped 5 pageStat countingFile [⟨0, n⟩, ⟨0, 0⟩]).req [⟨0, 0⟩]

lemma pageRanges_get {n : ℕ}
    (hsurvive : (pageRanges n).req.ranges.filterMap (rangeFixup 8000) = [⟨0, n⟩, ⟨0, 0⟩])
    (hhead : (pageHead n).req.status = .write) (hle : (pageHead n).req.bufferEnd ≤ 1024)
    (hnext : (pageNext n).length ≤ 256) :
    MultirangeGet {} mappingEnv 5 pageStat countingFile ⟨0, n⟩ [⟨0, 0⟩] (pageRanges n) where
  kind := rfl
  modified := by simp [pageRanges]
  pos := by simp [pageStat]
  small := by simp [pageStat, maxFileMmap]
  mmapOk := rfl
  sigbus := rfl
  method := rfl
  status := rfl
  start := rfl
  empty := rfl
  many := le_rfl
  given := by simp [pageRanges]
  survive := hsurvive
  head := hhead
  head_le := hle
  parts := by
    intro range hmem
    obtain rfl := List.mem_singleton.mp hmem
    exact hnext
  sock := ⟨by simp [pageRanges], by simp [pageRanges]⟩
  bufsize := by simp

/-- With 3600 bytes in the first range, the header of the second fits behind it. -/
theorem multirange_completes_short :
    CompletesMultirange {} mappingEnv 5 pageStat countingFile (str "/w/a") ⟨0, 3599⟩ [⟨0, 0⟩]
      (pageRanges 3599) := by
  have hget := pageRanges_get (n := 3599) (by decide) (by decide)
    (by decide) (by decide)
  refine (multirange_completes_iff hget).mpr (Or.inr ?_)
  decide

/-- With 3700 bytes it does not, and the request fails. -/
theorem multirange_loses_part :
    MultirangeGet {} mappingEnv 5 pageStat countingFile ⟨0, 3699⟩ [⟨0, 0⟩] (pageRanges 3699) ∧
      ¬CompletesMultirange {} mappingEnv 5 pageStat countingFile (str "/w/a") ⟨0, 3699⟩ [⟨0, 0⟩]
        (pageRanges 3699) := by
  have hget := pageRanges_get (n := 3699) (by decide) (by decide)
    (by decide) (by decide)
  have hdead : (started {} mappingEnv 5 pageStat countingFile (str "/w/a")
      (pageRanges 3699)).conn.req.status = .dead := by decide +kernel
  refine ⟨hget, fun ⟨n, hall⟩ => ?_⟩
  have hdone := (hall (List.replicate n generousEnv) (by simp) (replicate_generous n)).status
  rw [serves_dead hdead] at hdone
  cases hdone

end Yabwf
