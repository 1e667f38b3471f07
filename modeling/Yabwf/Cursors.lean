import Mathlib.Logic.Relation
import Yabwf.Engines
import Yabwf.MovedPage
import Yabwf.Quoted

/-!
The cursors of the output buffer.

* `BufferOp`: an operation on the buffer, and the code between two of them.
* `BufferOp.buffered`: no operation takes the cursors out of order.
* `BufferOps`: operations one after the other; the functions of `buffer.c`, `response.c`, `get.c`,
  `pipe.c`, `cgi_header.c` and `request.c` are nothing else as far as the buffer goes.
* `Fills`: what only puts bytes in keeps `buffer_start`, which is why `init_get` finds it at 0.
* `buffer_invariant`: the cursors are in order in every run.
-/

namespace Yabwf

open Memory

/-! ### Operations -/

/-- What happens to the output buffer: the operations that move its cursors, and whatever leaves
them alone. -/
inductive BufferOp : Conn → Conn → Prop
  | write (msg : Bytes) (c : Conn) : BufferOp c (reqWrite msg c)
  | escapeHttp (text : Text) (c : Conn) : BufferOp c (reqWriteEscapeHttp text c)
  | escapeHtml (text : Text) (c : Conn) : BufferOp c (reqWriteEscapeHtml text c)
  | flush (c : Conn) : BufferOp c (reqFlush c).2
  /-- `reset_output_buffer`, as `init_get` calls it: nothing has left the buffer yet. -/
  | reset (c : Conn) (h : c.req.bufferStart = 0) : BufferOp c (resetOutputBuffer c)
  /-- Bytes that are copied or read behind `buffer_end`, as many as there is room for. -/
  | fill {c d : Conn} (n : ℕ) (hroom : n ≤ bufferSize - c.req.bufferEnd)
      (hs : d.req.bufferStart = c.req.bufferStart) (he : d.req.bufferEnd = c.req.bufferEnd + n) :
      BufferOp c d
  /-- The `write` of `io_shuffle`. -/
  | drain {c d : Conn} (n : ℕ) (hn : n ≤ c.req.bufferEnd - c.req.bufferStart)
      (hs : d.req.bufferStart = c.req.bufferStart + n) (he : d.req.bufferEnd = c.req.bufferEnd) :
      BufferOp c d
  /-- `buffer_start = buffer_end = 0`. -/
  | empty {c d : Conn} (hs : d.req.bufferStart = 0) (he : d.req.bufferEnd = 0) : BufferOp c d
  | other {c d : Conn} (hs : d.req.bufferStart = c.req.bufferStart)
      (he : d.req.bufferEnd = c.req.bufferEnd) : BufferOp c d

section

variable {c d e : Conn}

lemma Buffered.congr (h : Buffered c.req) (hs : d.req.bufferStart = c.req.bufferStart)
    (he : d.req.bufferEnd = c.req.bufferEnd) : Buffered d.req :=
  ⟨hs ▸ he ▸ h.start_le, he ▸ h.end_le⟩

/-- The two subtractions do not wrap. -/
lemma Buffered.noWrap (h : Buffered c.req) :
    c.req.bytesToWrite = c.req.bufferEnd - c.req.bufferStart ∧
      (((bufferSize - c.req.bufferEnd : ℕ) : ℤ)) = (bufferSize : ℤ) - c.req.bufferEnd := by
  have hle := h.start_le
  have hend := h.end_le
  refine ⟨?_, Int.ofNat_sub hend⟩
  rw [bufferSize] at hend
  rw [Request.bytesToWrite]
  omega

lemma reqWrite_buffered (msg : Bytes) (h : Buffered c.req) : Buffered (reqWrite msg c).req := by
  rw [reqWrite]
  split_ifs with hskip hroom
  · exact h
  · exact h.congr rfl rfl
  · exact (h.append msg (not_lt.mp hroom)).1

lemma reqWriteEscapeText_buffered {guardBand : ℕ} {escape : UInt8 → Bytes}
    (hle : ∀ b, (escape b).length ≤ guardBand) (text : Text) (h : Buffered c.req) :
    Buffered (reqWriteEscapeText guardBand escape text c).req := by
  have hend := h.end_le
  have hwritten {bs : Bytes} (hlen : bs.length ≤ bufferSize - c.req.bufferEnd) :
      Buffered (c.append bs).req := (h.append bs (by omega)).1
  cases text with
  | elsewhere msg =>
      have hput := hwritten (length_escapeLoop_le hle msg (bufferSize - c.req.bufferEnd))
      show Buffered (reqWriteEscape guardBand escape msg c).req
      rw [reqWriteEscape]
      split_ifs
      · exact hput
      · exact hput.congr rfl rfl
  | inBuffer off =>
      have hput := hwritten (length_escapeInPlace_le hle
        (bufferSize - c.req.bufferEnd + 1) c.req.buffer off c.req.bufferEnd
        (bufferSize - c.req.bufferEnd))
      rw [reqWriteEscapeText]
      split_ifs
      · exact hput
      · exact hput.congr rfl rfl

lemma flushDone_buffered (h : Buffered c.req) : Buffered (flushDone c).2.req := by
  rw [flushDone]
  split_ifs
  · exact ⟨le_rfl, Nat.zero_le _⟩
  · exact h

lemma reqFlush_buffered (h : Buffered c.req) : Buffered (reqFlush c).2.req := by
  have hdropped (d : Conn) : Buffered ({ d.req with bufferStart := 0, bufferEnd := 0 }) :=
    ⟨le_rfl, Nat.zero_le _⟩
  have hwrap := h.noWrap.1
  rw [Request.bytesToWrite] at hwrap
  unfold reqFlush
  rw [hwrap]
  extract_lets n
  split_ifs with hdone hzero
  · exact h
  · exact flushDone_buffered h
  · rcases hpop : c.pop with ⟨res, d⟩
    obtain ⟨t, rfl⟩ := pop_setTape hpop
    cases res with
    | again => exact h
    | intr => exact ⟨le_rfl, Nat.zero_le _⟩
    | error => exact ⟨le_rfl, Nat.zero_le _⟩
    | accept m =>
        refine flushDone_buffered ⟨?_, h.end_le⟩
        have hle := h.start_le
        show c.req.bufferStart + min m n ≤ c.req.bufferEnd
        omega

/-- **Operations keep the cursors in order.** -/
lemma BufferOp.buffered (hop : BufferOp c d) (h : Buffered c.req) : Buffered d.req := by
  have hle := h.start_le
  have hend := h.end_le
  cases hop with
  | write msg => exact reqWrite_buffered msg h
  | escapeHttp text => exact reqWriteEscapeText_buffered escaping_escapeHttp.le text h
  | escapeHtml text => exact reqWriteEscapeText_buffered escaping_escapeHtml.le text h
  | flush => exact reqFlush_buffered h
  | reset _ hstart => exact ⟨hstart.le, Nat.zero_le _⟩
  | fill n hroom hs he => exact ⟨by omega, by omega⟩
  | drain n hn hs he => exact ⟨by omega, by omega⟩
  | empty hs he => exact ⟨by omega, by omega⟩
  | other hs he => exact h.congr hs he

/-- Operations one after the other. -/
abbrev BufferOps : Conn → Conn → Prop := Relation.ReflTransGen BufferOp

namespace BufferOps

lemma of_op (h : BufferOp c d) : BufferOps c d := Relation.ReflTransGen.single h

/-- The cursors are in order behind any sequence of operations. -/
lemma buffered (hops : BufferOps c d) (h : Buffered c.req) : Buffered d.req := by
  induction hops with
  | refl => exact h
  | tail _ hop ih => exact hop.buffered ih

lemma same (hs : d.req.bufferStart = c.req.bufferStart) (he : d.req.bufferEnd = c.req.bufferEnd) :
    BufferOps c d := of_op (.other hs he)

lemma flush (h : BufferOps c d) : BufferOps c (reqFlush d).2 := h.tail (.flush d)

/-- The connection that a function returns beside its result. -/
lemma snd {α : Type} {i : α} (h : BufferOps c d) : BufferOps c (i, d).2 := h

lemma ite {α : Type} {p : Prop} [Decidable p] {a b : α × Conn} (h : BufferOps c a.2)
    (h' : BufferOps c b.2) : BufferOps c (if p then a else b).2 := by
  split_ifs
  · exact h
  · exact h'

end BufferOps

/-! ### Functions that do not flush -/

/-- What a function does that only puts text into the buffer. -/
structure Fills (c d : Conn) : Prop where
  ops : BufferOps c d
  start : d.req.bufferStart = c.req.bufferStart

namespace Fills

lemma refl (c : Conn) : Fills c c := ⟨.refl, rfl⟩

lemma trans (h : Fills c d) (h' : Fills d e) : Fills c e :=
  ⟨h.ops.trans h'.ops, h'.start.trans h.start⟩

lemma same (hs : d.req.bufferStart = c.req.bufferStart) (he : d.req.bufferEnd = c.req.bufferEnd) :
    Fills c d := ⟨BufferOps.same hs he, hs⟩

lemma ite {p : Prop} [Decidable p] {a b : Conn} (h : Fills c a) (h' : Fills c b) :
    Fills c (if p then a else b) := by
  split_ifs
  · exact h
  · exact h'

lemma write (h : Fills c d) (msg : Bytes) : Fills c (reqWrite msg d) := by
  refine ⟨h.ops.tail (.write msg d), Eq.trans ?_ h.start⟩
  rw [reqWrite]
  split_ifs <;> rfl

lemma note (h : Fills c d) (ev : Event) : Fills c (d.note ev) := by
  rw [Conn.note]
  split_ifs
  · exact h
  · exact h.trans (same rfl rfl)

end Fills

lemma printContentType_fills (cfg : Config) (c : Conn) : Fills c (printContentType cfg c) := by
  rw [printContentType]
  have htype := ((Fills.refl c).write (str "Content-Type: ")).write
    (getMimeType cfg c.req.requestUri)
  cases cfg.defaultCharset with
  | none => exact htype.write _
  | some charset =>
      dsimp only
      split_ifs
      · exact ((htype.write _).write _).write _
      · exact htype.write _

lemma printLastModified_fills (env : Env) (c : Conn) : Fills c (printLastModified env c) :=
  (Fills.refl c).write _

lemma printKaPhrase_fills (cfg : Config) (c : Conn) : Fills c (printKaPhrase cfg c) := by
  rw [printKaPhrase]
  split_ifs
  · exact (((((((Fills.refl c).write _).note _).write _).write _).write _).write _)
  · exact (Fills.refl c).write _

lemma printHttpHeaders_fills (cfg : Config) (env : Env) (c : Conn) :
    Fills c (printHttpHeaders cfg env c) := by
  unfold printHttpHeaders
  extract_lets d e
  have hd : Fills c d := (Fills.refl c).write _
  have he : Fills d e := Fills.ite (Fills.refl d) ((Fills.refl d).write _)
  clear_value d e
  exact ((hd.trans he).write _).trans (printKaPhrase_fills cfg _)

lemma statusLine_fills (cfg : Config) (env : Env) (line : String) (c : Conn) :
    Fills c (statusLine cfg env line c) :=
  ((((Fills.refl c).write _).write _).note _).trans (printHttpHeaders_fills cfg env _)

lemma printPartialContentContinue_fills (cfg : Config) (c : Conn) :
    Fills c (printPartialContentContinue cfg c) := by
  have hrange (d : Conn) : Fills d (printContentRange d) :=
    ((((((((Fills.refl d).write _).write _).write _).write _).write _).write _).write _)
  rw [printPartialContentContinue]
  refine Fills.trans ?_ ((printContentType_fills cfg _).trans (hrange _))
  exact Fills.ite ((Fills.refl c).write _) (Fills.refl c)

lemma setResponse_fills (code : ℕ) (c : Conn) : Fills c (c.setResponse code) := Fills.same rfl rfl

lemma sendRRequestOk_fills (cfg : Config) (env : Env) (c : Conn) :
    Fills c (sendRRequestOk cfg env c) := by
  rw [sendRRequestOk]
  refine (setResponse_fills 200 c).trans (Fills.ite (Fills.refl _) ?_)
  refine (statusLine_fills cfg env _ _).trans (Fills.ite ?_ (Fills.refl _))
  have hlength (d : Conn) : Fills d (printContentLength d) :=
    (((Fills.refl d).write _).write _).write _
  exact ((hlength _).trans ((printLastModified_fills env _).trans
    (printContentType_fills cfg _))).write _

lemma sendRNoContent_fills (cfg : Config) (env : Env) (c : Conn) :
    Fills c (sendRNoContent cfg env c) := by
  rw [sendRNoContent]
  refine (setResponse_fills 204 c).trans (Fills.ite (Fills.refl _) ?_)
  exact (statusLine_fills cfg env _ _).trans (Fills.ite ((Fills.refl _).write _) (Fills.refl _))

lemma sendRPartialContent_fills (cfg : Config) (env : Env) (c : Conn) :
    Fills c (sendRPartialContent cfg env c) := by
  unfold sendRPartialContent
  extract_lets d range e
  have hd : Fills c d := ((setResponse_fills 206 c).trans (statusLine_fills cfg env _ _)).trans
    (printLastModified_fills env _)
  have he : Fills d e := Fills.ite (((Fills.refl d).write _).write _)
    ((((Fills.refl d).write _).write _).write _)
  clear_value d e
  exact ((hd.trans he).trans (printPartialContentContinue_fills cfg e)).write _

/-! ### Pages -/

lemma partialDone_ops (c : Conn) :
    BufferOps c (reqFlush (c |> printPartialContentDone |> Conn.setStatus .done)).2 := by
  have hput : Fills c (printPartialContentDone c) := (Fills.refl c).write _
  generalize printPartialContentDone c = d at hput ⊢
  have hdone : BufferOps d (d.setStatus .done) := BufferOps.same rfl rfl
  exact BufferOps.flush (hput.ops.trans hdone)

lemma completeResponse_ops (cfg : Config) (c : Conn) : BufferOps c (completeResponse cfg c).2 := by
  have htail : BufferOps c (c.upd fun r => { r with ranges := r.ranges.tail }) :=
    BufferOps.same rfl rfl
  rw [completeResponse]
  generalize (c.upd fun r => { r with ranges := r.ranges.tail }) = d at htail ⊢
  refine htail.trans ?_
  split_ifs
  · exact BufferOps.snd ((printPartialContentContinue_fills cfg d).write crlf).ops
  · exact BufferOps.snd (partialDone_ops d)
  · exact BufferOps.snd (BufferOps.same rfl rfl)

lemma sendRNotModified_ops (cfg : Config) (env : Env) (c : Conn) :
    BufferOps c (sendRNotModified cfg env c) := by
  rw [sendRNotModified]
  have hset : Fills c (c.squashKa.setResponse 304) := Fills.same rfl rfl
  generalize c.squashKa.setResponse 304 = d at hset ⊢
  exact (((hset.trans (statusLine_fills cfg env _ d)).trans
    (printContentType_fills cfg _)).write _).ops.flush

lemma sendRPage_ops (cfg : Config) (env : Env) (code : ℕ) (line : String)
    {fields body : Conn → Conn} (hfields : ∀ d, BufferOps d (fields d))
    (hbody : ∀ d, BufferOps d (body d)) (c : Conn) :
    BufferOps c (sendRPage cfg env code line fields body c) := by
  unfold sendRPage
  extract_lets d e f
  have hd : BufferOps c d := BufferOps.same rfl rfl
  have he : BufferOps d e := by
    show BufferOps d (if d.req.httpVersion = .http09 then d
      else d |> statusLine cfg env line |> fields)
    split_ifs
    · exact .refl
    · exact (statusLine_fills cfg env line d).ops.trans (hfields _)
  clear_value d e
  have hf : BufferOps e f := by
    show BufferOps e (if e.req.method = .head then e else body e)
    split_ifs
    · exact .refl
    · exact hbody e
  exact BufferOps.flush ((hd.trans he).trans hf)

lemma write_ops (msg : Bytes) (c : Conn) : BufferOps c (reqWrite msg c) :=
  BufferOps.of_op (.write msg c)

lemma uriBody_ops (before after : String) (c : Conn) : BufferOps c (uriBody before after c) :=
  ((write_ops _ c).tail (.escapeHtml _ _)).tail (.write _ _)

lemma movedBody_ops (before : String) (url : Text) (c : Conn) :
    BufferOps c (movedBody before url c) :=
  ((write_ops _ c).tail (.escapeHtml _ _)).tail (.write _ _)

lemma movedFields_ops (url : Text) (c : Conn) : BufferOps c (movedFields url c) :=
  ((write_ops _ c).tail (.write _ _)).tail (.escapeHttp _ _)

section

variable (cfg : Config) (env : Env) (c : Conn)

lemma sendRMovedPerm_ops (url : Bytes) : BufferOps c (sendRMovedPerm cfg env url c) := by
  rw [sendRMovedPerm]
  exact sendRPage_ops cfg env 301 _ (fun d => (movedFields_ops _ d).tail (.write _ _))
    (movedBody_ops _ _) c

lemma sendRMovedTemp_ops (url : Text) (moreHdr : Request → Bytes) :
    BufferOps c (sendRMovedTemp cfg env url moreHdr c) := by
  rw [sendRMovedTemp]
  refine sendRPage_ops cfg env 302 _ (fun d => ?_) (movedBody_ops _ _) c
  exact (((movedFields_ops url d).tail (.write _ _)).tail (.write _ _)).tail (.write _ _)

lemma htmlField_ops : BufferOps c (htmlField c) := write_ops _ c

lemma sendRBadRequest_ops : BufferOps c (sendRBadRequest cfg env c) := by
  rw [sendRBadRequest]
  exact sendRPage_ops cfg env 400 _ htmlField_ops (write_ops _) c

lemma sendRForbidden_ops : BufferOps c (sendRForbidden cfg env c) := by
  rw [sendRForbidden]
  exact sendRPage_ops cfg env 403 _ htmlField_ops (uriBody_ops _ _) c

lemma sendRNotFound_ops : BufferOps c (sendRNotFound cfg env c) := by
  rw [sendRNotFound]
  exact sendRPage_ops cfg env 404 _ htmlField_ops (uriBody_ops _ _) c

lemma lengthField_ops (body : Bytes) : BufferOps c (lengthField body c) :=
  (write_ops _ c).tail (.write _ _)

lemma sendRInvalidRange_ops : BufferOps c (sendRInvalidRange cfg env c) := by
  rw [sendRInvalidRange]
  exact sendRPage_ops cfg env 416 _ (fun d => (lengthField_ops d _).tail (.write _ _))
    (write_ops _) c

lemma sendRError_ops : BufferOps c (sendRError cfg env c) := by
  rw [sendRError]
  exact sendRPage_ops cfg env 500 _ htmlField_ops (write_ops _) c

lemma sendRNotImplemented_ops : BufferOps c (sendRNotImplemented cfg env c) := by
  unfold sendRNotImplemented
  extract_lets d e
  have hd : BufferOps c d := BufferOps.same rfl rfl
  have he : BufferOps d e := by
    show BufferOps d (if d.req.httpVersion = .http09 then d
      else d |> statusLine cfg env " 501 Not Implemented\r\n" |> htmlField)
    split_ifs
    · exact .refl
    · exact (statusLine_fills cfg env _ d).ops.trans (htmlField_ops _)
  clear_value d e
  exact BufferOps.flush ((hd.trans he).trans (write_ops _ e))

lemma sendRBadGateway_ops : BufferOps c (sendRBadGateway cfg env c) := by
  rw [sendRBadGateway]
  exact sendRPage_ops cfg env 502 _ htmlField_ops (write_ops _) c

lemma sendRServiceUnavailable_ops : BufferOps c (sendRServiceUnavailable cfg env c) := by
  rw [sendRServiceUnavailable]
  refine sendRPage_ops cfg env 503 _ (fun d => ?_) (write_ops _) c
  exact ((lengthField_ops d _).tail (.write _ _)).trans (htmlField_ops _)

lemma rangesFixup_ops : BufferOps c (rangesFixup cfg env c).2 := by
  unfold rangesFixup
  extract_lets _ d
  have hd : BufferOps c d := BufferOps.same rfl rfl
  split_ifs
  · exact hd.trans (sendRInvalidRange_ops cfg env d)
  · exact hd

/-- Where the ranges can be satisfied, nothing is put into the buffer. -/
lemma rangesFixup_start (h : (rangesFixup cfg env c).1 = true) :
    (rangesFixup cfg env c).2.req.bufferStart = c.req.bufferStart := by
  unfold rangesFixup at h ⊢
  extract_lets at h ⊢
  split_ifs at h ⊢
  rfl

end

/-! ### Scripts -/

section

variable (cfg : Config) (env : Env)

lemma addCgiEnv_cursors (r : Request) (key value : Bytes) (http : Bool) :
    (addCgiEnv r key value http).2.bufferStart = r.bufferStart ∧
      (addCgiEnv r key value http).2.bufferEnd = r.bufferEnd := by
  rw [addCgiEnv]
  split_ifs <;> exact ⟨rfl, rfl⟩

lemma addCgiEnvs_cursors (vars : List (Bytes × Bytes)) (r : Request) :
    (addCgiEnvs vars r).2.bufferStart = r.bufferStart ∧
      (addCgiEnvs vars r).2.bufferEnd = r.bufferEnd := by
  induction vars generalizing r with
  | nil => exact ⟨rfl, rfl⟩
  | cons v vars ih =>
      obtain ⟨key, value⟩ := v
      have hadd := addCgiEnv_cursors r key value false
      rw [addCgiEnvs]
      generalize addCgiEnv r key value false = res at hadd ⊢
      obtain ⟨ok, r'⟩ := res
      cases ok with
      | true => exact ⟨(ih r').1.trans hadd.1, (ih r').2.trans hadd.2⟩
      | false => exact hadd

lemma completeEnv_cursors (r : Request) :
    (completeEnv cfg r).2.bufferStart = r.bufferStart ∧
      (completeEnv cfg r).2.bufferEnd = r.bufferEnd := by
  have hadd := addCgiEnvs_cursors (completeEnvVars cfg { r with
    cgiEnv := fun i => if i < cfg.commonCgiEnv.length then cfg.commonCgiEnv[i]? else r.cgiEnv i })
    { r with
      cgiEnv := fun i => if i < cfg.commonCgiEnv.length then cfg.commonCgiEnv[i]? else r.cgiEnv i }
  rw [completeEnv]
  generalize addCgiEnvs _ _ = res at hadd ⊢
  obtain ⟨ok, r'⟩ := res
  cases ok with
  | true =>
      dsimp only
      split_ifs <;> exact hadd
  | false => exact hadd

lemma closePipe_ops (pipes : Option (ℕ × ℕ)) (c : Conn) : BufferOps c (closePipe pipes c) := by
  cases pipes with
  | none => exact .refl
  | some ends => exact BufferOps.same rfl rfl

lemma initCgiParent_ops (pipes : Option (ℕ × ℕ)) (c : Conn) :
    BufferOps c (initCgiParent pipes c).2 := by
  have hclosed : BufferOps c (if c.req.method = .post then
      (c.emit (.closed c.req.postDataFd)).upd fun r => { r with postDataFd := 0 } else c) := by
    split_ifs
    · exact BufferOps.same rfl rfl
    · exact .refl
  simp only [initCgiParent]
  generalize (if c.req.method = .post then _ else c : Conn) = d at hclosed ⊢
  cases pipes with
  | none => exact hclosed
  | some ends => exact hclosed.trans (BufferOps.same rfl rfl)

lemma initCgiFork_ops (pipes : Option (ℕ × ℕ)) (c : Conn) :
    BufferOps c (initCgiFork cfg env pipes c).2 := by
  refine BufferOps.ite ?_ ?_
  · have hchild : BufferOps c { c with trace := c.trace ++ childEvent cfg c.req } :=
      BufferOps.same rfl rfl
    exact hchild.trans (initCgiParent_ops pipes _)
  · exact (sendRError_ops cfg env c).trans (closePipe_ops pipes _)

lemma initCgiPipes_ops (c : Conn) : BufferOps c (initCgiPipes cfg env c).2 := by
  refine BufferOps.ite ?_ (initCgiFork_ops cfg env none c)
  cases env.pipe with
  | none => exact .refl
  | some ends =>
      have hopened : BufferOps c ((c.emit (.opened ends.1)).emit (.opened ends.2)) :=
        BufferOps.same rfl rfl
      exact hopened.trans (BufferOps.ite (initCgiFork_ops cfg env _ _)
        (BufferOps.snd (closePipe_ops _ _)))

lemma initCgi_ops (c : Conn) : BufferOps c (initCgi cfg env c).2 := by
  have hsquash : BufferOps c c.squashKa := BufferOps.same rfl rfl
  refine hsquash.trans (BufferOps.ite (initCgiPipes_ops cfg env _) ?_)
  have hsame := completeEnv_cursors cfg c.squashKa.req
  generalize completeEnv cfg c.squashKa.req = res at hsame ⊢
  obtain ⟨ok, r⟩ := res
  have hr : BufferOps c.squashKa { c.squashKa with req := r } :=
    BufferOps.same hsame.1 hsame.2
  cases ok with
  | true => exact hr.trans (initCgiPipes_ops cfg env _)
  | false => exact hr

/-! ### Documents -/

lemma gunzipResponse_ops (path : Bytes) {fields : Conn → Conn}
    (hfields : ∀ d, Fills d (fields d)) (c : Conn) :
    BufferOps c (gunzipResponse cfg env path fields c).2 := by
  have hset : BufferOps c
      (c.upd fun r => { r with responseStatus := 200, pathname := some path }) :=
    BufferOps.same rfl rfl
  refine hset.trans ?_
  rw [gunzipResponse]
  generalize (c.upd fun r => { r with responseStatus := 200, pathname := some path }) = d
  have hhead : BufferOps d (if d.req.httpVersion = .http09 then d
      else (reqFlush (d |> statusLine cfg env " 200 OK-GUNZIP\r\n" |> fields)).2) := by
    split_ifs
    · exact .refl
    · exact BufferOps.flush ((statusLine_fills cfg env _ d).trans (hfields _)).ops
  exact hhead.trans (BufferOps.ite .refl (initCgi_ops cfg env _))

lemma indexDirectory_ops (c : Conn) : BufferOps c (indexDirectory cfg env c).2 := by
  rw [indexDirectory]
  cases env.chdir with
  | denied => exact sendRForbidden_ops cfg env c
  | other => exact sendRBadRequest_ops cfg env c
  | ok =>
      exact BufferOps.ite (sendRError_ops cfg env c)
        (BufferOps.ite (sendRError_ops cfg env c) (BufferOps.same rfl rfl))

lemma getCachedirFile_ops (cachedir : Bytes) (st : Stat) (c : Conn) :
    BufferOps c (getCachedirFile cfg env cachedir st c).2 :=
  getCachedirFile_invariant (P := BufferOps c) (Q := fun res => BufferOps c res.2)
    (fun _ h => h.trans (BufferOps.same rfl rfl)) (fun _ h => h.trans (BufferOps.same rfl rfl))
    (fun h => h.trans (indexDirectory_ops cfg env _))
    (fun _ _ _ _ h => h.trans (BufferOps.same rfl rfl)) (fun h => h)
    (fun h => h.trans (sendRError_ops cfg env _)) cachedir st .refl

lemma getDirListing_ops (st : Stat) (c : Conn) : BufferOps c (getDirListing cfg env st c).2 := by
  rw [getDirListing]
  cases cfg.dirmaker with
  | some maker =>
      have hset : BufferOps c (c.setResponse 200).squashKa := BufferOps.same rfl rfl
      refine hset.trans ?_
      dsimp only
      generalize (c.setResponse 200).squashKa = d
      have hhead : BufferOps d (if d.req.httpVersion = .http09 then d
          else (reqFlush (d |> statusLine cfg env " 200 OK\r\n" |> printLastModified env
            |> reqWrite (str "Content-Type: text/html\r\n\r\n"))).2) := by
        split_ifs
        · exact .refl
        · exact BufferOps.flush (((statusLine_fills cfg env _ d).trans
            (printLastModified_fills env _)).write _).ops
      exact hhead.trans (BufferOps.ite .refl (initCgi_ops cfg env _))
  | none =>
      cases cfg.cachedir with
      | some cachedir => exact getCachedirFile_ops cfg env cachedir st c
      | none => exact sendRForbidden_ops cfg env c

lemma getDir_ops (st : Stat) (c : Conn) : BufferOps c (getDir cfg env st c).2 := by
  unfold getDir
  cases cfg.directoryIndex with
  | none => exact getDirListing_ops cfg env st c
  | some index =>
      refine BufferOps.ite (sendRError_ops cfg env c) ?_
      cases env.openFile (c.req.pathname.getD [] ++ index) with
      | ok fd st' contents => exact BufferOps.same rfl rfl
      | eacces => exact sendRForbidden_ops cfg env c
      | other => exact sendRNotFound_ops cfg env c
      | enoent =>
          refine BufferOps.ite (getDirListing_ops cfg env st c) ?_
          cases env.openFile (c.req.pathname.getD [] ++ index ++ str ".gz") with
          | ok fd st' contents =>
              have hopen : BufferOps c ((c.emit (.opened fd)).emit (.closed fd)).squashKa :=
                BufferOps.same rfl rfl
              refine hopen.trans (gunzipResponse_ops cfg env _ (fun d => ?_) _)
              exact (((printLastModified_fills env d).write _).write _).write _
          | enoent => exact getDirListing_ops cfg env st c
          | eacces => exact getDirListing_ops cfg env st c
          | other => exact getDirListing_ops cfg env st c

lemma advance_cursors (r : Request) (n : ℕ) :
    (r.advance n).bufferStart = r.bufferStart ∧ (r.advance n).bufferEnd = r.bufferEnd := by
  rw [Request.advance]
  cases r.ranges <;> exact ⟨rfl, rfl⟩

lemma sent_ops (n : ℕ) (c : Conn) : BufferOps c (c.sent n) :=
  BufferOps.same (advance_cursors c.req n).1 (advance_cursors c.req n).2

/-- Bytes that fit are put behind the others. -/
lemma append_ops {bs : Bytes} {c : Conn} (hfit : c.req.bufferEnd + bs.length ≤ bufferSize) :
    BufferOps c (c.append bs) :=
  BufferOps.of_op (.fill bs.length (Nat.le_sub_of_add_le' hfit) rfl rfl)

/-- The end of `init_get` comes before anything has left the buffer. -/
lemma fillBuffer_ops (c : Conn) (hstart : c.req.bufferStart = 0) :
    BufferOps c (fillBuffer cfg env c).2 := by
  have hsent (bs : Bytes) (hfit : c.req.bufferEnd + bs.length ≤ bufferSize) :
      BufferOps c ((c.append bs).sent bs.length) := (append_ops hfit).trans (sent_ops _ _)
  rcases fillBuffer_cases cfg env c with heq | heq | ⟨bs, -, hfit, heq | heq⟩
  · rw [heq]
  · rw [heq]
    exact (BufferOps.of_op (.reset c hstart)).trans (sendRError_ops cfg env _)
  · rw [heq]
    exact (hsent bs hfit).trans (completeResponse_ops cfg _)
  · rw [heq]
    exact hsent bs hfit

lemma sendFileHeader_ops (path : Bytes) (c : Conn) (hstart : c.req.bufferStart = 0) :
    BufferOps c (sendFileHeader cfg env path c).2 := by
  have hsend : ∀ d : Conn, Fills c d → BufferOps c (if d.req.method = .head then
      completeResponse cfg d else fillBuffer cfg env (d.emit (.served path))).2 := fun d hd =>
    hd.ops.trans (BufferOps.ite (completeResponse_ops cfg d)
      ((BufferOps.same rfl rfl : BufferOps d (d.emit (.served path))).trans
        (fillBuffer_ops cfg env _ (hd.start.trans hstart))))
  refine BufferOps.ite ?_ (hsend _ (sendRPartialContent_fills cfg env c))
  have hset : Fills c (c.upd fun r => { r with ranges := [⟨0, ulongMax⟩] }) := Fills.same rfl rfl
  have hfix := rangesFixup_ops cfg env (c.upd fun r => { r with ranges := [⟨0, ulongMax⟩] })
  have hkept := rangesFixup_start cfg env (c.upd fun r => { r with ranges := [⟨0, ulongMax⟩] })
  generalize rangesFixup cfg env (c.upd fun r => { r with ranges := [⟨0, ulongMax⟩] }) = res
    at hfix hkept ⊢
  obtain ⟨ret, d⟩ := res
  cases ret with
  | true =>
      have hd : Fills c d := hset.trans ⟨hfix, hkept rfl⟩
      exact hsend _ (hd.trans (sendRRequestOk_fills cfg env d))
  | false => exact BufferOps.snd (hset.ops.trans hfix)

lemma attachFile_fills (fd : ℕ) (contents : Mem) (c : Conn) :
    Fills c (attachFile env fd contents c) := by
  rw [attachFile]
  split_ifs <;> exact Fills.same rfl rfl

lemma serveFile_ops (fd : ℕ) (st : Stat) (contents : Mem) (path : Bytes) (c : Conn)
    (hstart : c.req.bufferStart = 0) :
    BufferOps c (serveFile cfg env fd st contents path c).2 := by
  have hclosed {d e : Conn} (h : BufferOps d e) : BufferOps d (e.emit (.closed fd)) :=
    h.trans (BufferOps.same rfl rfl)
  have hset : Fills c (c.upd fun r => { r with filesize := st.size, lastModified := st.mtime }) :=
    Fills.same rfl rfl
  refine BufferOps.ite (hclosed (sendRBadRequest_ops cfg env c))
    (BufferOps.ite (hclosed (sendRNotModified_ops cfg env c)) (hset.ops.trans ?_))
  dsimp only
  generalize (c.upd fun r => { r with filesize := st.size, lastModified := st.mtime }) = d
    at hset ⊢
  refine BufferOps.ite (BufferOps.ite (hclosed (sendRNoContent_fills cfg env d).ops)
    (hclosed (sendRRequestOk_fills cfg env d).ops)) ?_
  have hfix : BufferOps d (if d.req.ranges = [] then (true, d) else rangesFixup cfg env d).2 :=
    BufferOps.ite .refl (rangesFixup_ops cfg env d)
  have hkept (h : (if d.req.ranges = [] then (true, d) else rangesFixup cfg env d).1 = true) :
      (if d.req.ranges = [] then (true, d) else rangesFixup cfg env d).2.req.bufferStart =
        d.req.bufferStart := by
    split_ifs at h ⊢
    · rfl
    · exact rangesFixup_start cfg env d h
  generalize (if d.req.ranges = [] then (true, d) else rangesFixup cfg env d) = res
    at hfix hkept ⊢
  obtain ⟨ret, e⟩ := res
  cases ret with
  | true =>
      have he : Fills d (attachFile env fd contents e) :=
        Fills.trans ⟨hfix, hkept rfl⟩ (attachFile_fills env fd contents e)
      exact he.ops.trans (sendFileHeader_ops cfg env path _
        (he.start.trans (hset.start.trans hstart)))
  | false => exact hfix.trans (BufferOps.same rfl rfl)

lemma initGetOpened_ops (fd : ℕ) (st : Stat) (contents : Mem) (c : Conn)
    (hstart : c.req.bufferStart = 0) :
    BufferOps c (initGetOpened cfg env fd st contents c).2 := by
  have hclose : Fills c (c.emit (.closed fd)) := Fills.same rfl rfl
  refine BufferOps.ite (sendRForbidden_ops cfg env c)
    (BufferOps.ite (serveFile_ops cfg env fd st contents _ c hstart) (hclose.ops.trans ?_))
  have hstart' := hclose.start.trans hstart
  generalize c.emit (.closed fd) = d at hstart' ⊢
  refine BufferOps.ite ?_ ?_
  · cases directoryUrl cfg d.req with
    | none => exact BufferOps.snd (sendRError_ops cfg env d)
    | some url => exact BufferOps.snd (sendRMovedPerm_ops cfg env d url)
  · have hdir := getDir_ops cfg env st d
    rcases hres : getDir cfg env st d with ⟨res, e⟩
    rw [hres] at hdir
    cases res with
    | ret value => exact hdir
    | file fd' st' contents' path =>
        obtain ⟨stale, uri, size, rfl⟩ := getDir_eq_file hres
        exact hdir.trans (BufferOps.ite .refl
          (serveFile_ops cfg env fd' st' contents' path _ hstart'))

lemma openFailed_ops (res : OpenResult) (c : Conn) : BufferOps c (openFailed cfg env res c).2 := by
  cases res with
  | enoent => exact BufferOps.snd (sendRNotFound_ops cfg env c)
  | eacces => exact BufferOps.snd (sendRForbidden_ops cfg env c)
  | other => exact BufferOps.snd (sendRBadRequest_ops cfg env c)
  | ok fd st contents => exact BufferOps.snd (sendRBadRequest_ops cfg env c)

/-- **`init_get`**, which finds nothing in the buffer that has left it. -/
lemma initGet_ops (c : Conn) (hstart : c.req.bufferStart = 0) :
    BufferOps c (initGet cfg env c).2 := by
  unfold initGet
  extract_lets path
  cases env.openFile path with
  | ok fd st contents =>
      have hopen : Fills c (c.emit (.opened fd)) := Fills.same rfl rfl
      exact hopen.ops.trans (initGetOpened_ops cfg env fd st contents _
        (hopen.start.trans hstart))
  | enoent =>
      refine BufferOps.ite (openFailed_ops cfg env _ c)
        (BufferOps.ite (sendRBadRequest_ops cfg env c) ?_)
      cases env.openFile (path ++ str ".gz") with
      | ok fd st contents =>
          have hopen : BufferOps c ((c.emit (.opened fd)).emit (.closed fd)) :=
            BufferOps.same rfl rfl
          refine hopen.trans (gunzipResponse_ops cfg env _ (fun d => ?_) _)
          exact ((printContentType_fills cfg d).trans (printLastModified_fills env _)).write _
      | enoent => exact openFailed_ops cfg env _ c
      | eacces => exact openFailed_ops cfg env _ c
      | other => exact openFailed_ops cfg env _ c
  | eacces => exact openFailed_ops cfg env _ c
  | other => exact openFailed_ops cfg env _ c

/-! ### Handlers -/

lemma readBody_ops (c : Conn) : BufferOps c (readBody cfg env c).2 := by
  have hstored (bs : Bytes) : BufferOps c ((c.upd fun r => { r.storeAt r.headerEnd bs with
      headerEnd := r.headerEnd.add bs.length }).setStatus .bodyWrite) := by
    refine BufferOps.same ?_ ?_
    all_goals
      simp only [Conn.setStatus, Conn.upd_req, Request.storeAt]
      cases c.req.headerEnd.region <;> rfl
  unfold readBody
  extract_lets bytesFree bytesToRead
  split_ifs
  · exact BufferOps.snd (BufferOps.same rfl rfl)
  cases env.sockRead with
  | again => exact .refl
  | intr => exact BufferOps.snd ((sendRError_ops cfg env c).trans (BufferOps.same rfl rfl))
  | error => exact BufferOps.snd ((sendRError_ops cfg env c).trans (BufferOps.same rfl rfl))
  | data bs =>
      dsimp only
      split_ifs
      · exact BufferOps.snd (sendRBadRequest_ops cfg env c)
      · exact BufferOps.snd (hstored _)

lemma writeBody_ops (c : Conn) : BufferOps c (writeBody cfg env c).2 := by
  rcases writeBody_cases cfg env c with ⟨-, ⟨-, heq⟩ | ⟨-, heq⟩⟩
    | ⟨-, ⟨-, heq⟩ | ⟨-, heq⟩ | ⟨-, heq⟩ | ⟨n, -, heq⟩⟩
  · rw [heq]
    have hrewind : BufferOps c c.rewind := BufferOps.same rfl rfl
    exact hrewind.trans (initCgi_ops cfg env _)
  · rw [heq]
    exact BufferOps.same rfl rfl
  · rw [heq]
  · rw [heq]
  · rw [heq]
    exact BufferOps.snd (sendRError_ops cfg env c)
  · rw [heq]
    exact BufferOps.same rfl rfl

lemma wrote_ops (t : List WriteResult) (bs : Bytes) (c : Conn) :
    BufferOps c ((c.setTape t).wrote bs) :=
  (BufferOps.same rfl rfl : BufferOps c ((c.setTape t).emit _)).trans (sent_ops _ _)

lemma processGet_ops (c : Conn) : BufferOps c (processGet cfg env c).2 := by
  rcases processGet_cases cfg env c with heq | ⟨t, heq⟩ | ⟨t, -, heq⟩ | ⟨t, bs, -, heq | heq⟩
  · rw [heq]
    exact completeResponse_ops cfg c
  · rw [heq]
    exact BufferOps.same rfl rfl
  · rw [heq]
    exact BufferOps.same rfl rfl
  · rw [heq]
    exact (wrote_ops t bs c).trans (completeResponse_ops cfg _)
  · rw [heq]
    exact wrote_ops t bs c

lemma ioShuffleSendfile_ops (c : Conn) : BufferOps c (ioShuffleSendfile cfg c).2 := by
  rcases ioShuffleSendfile_cases cfg c with heq | heq | ⟨t, heq⟩ | ⟨t, -, heq⟩
    | ⟨t, bs, -, heq | heq⟩
  · rw [heq]
    exact completeResponse_ops cfg c
  · rw [heq]
  · rw [heq]
    exact BufferOps.same rfl rfl
  · rw [heq]
    exact BufferOps.same rfl rfl
  · rw [heq]
    exact (wrote_ops t bs c).trans (completeResponse_ops cfg _)
  · rw [heq]
    exact wrote_ops t bs c

lemma ioShuffleWrite_ops (c : Conn) : BufferOps c (ioShuffleWrite c).2 := by
  have hdrained {t : List WriteResult} {n : ℕ}
      (hn : n ≤ c.req.bufferEnd - c.req.bufferStart) :
      BufferOps c ((c.setTape t).drained n) := BufferOps.of_op (.drain n hn rfl rfl)
  have hcleared (d : Conn) : BufferOps d d.clearBuffer := BufferOps.of_op (.empty rfl rfl)
  rcases ioShuffleWrite_cases c with ⟨-, ⟨-, heq⟩ | heq⟩ | ⟨t, -, -, heq⟩ | ⟨t, heq⟩
    | ⟨t, n, hn, ⟨-, heq⟩ | heq⟩
  · rw [heq]
  · rw [heq]
    exact hcleared c
  · rw [heq]
    exact BufferOps.same rfl rfl
  · rw [heq]
    exact BufferOps.same rfl rfl
  · rw [heq]
    exact (hdrained hn).trans (hcleared _)
  · rw [heq]
    exact hdrained hn

/-- **`io_shuffle`** is a sequence of operations. -/
lemma ioShuffle_ops (c : Conn) : BufferOps c (ioShuffle cfg env c).2 := by
  have hshuffled {bs : Bytes} (hfit : c.req.bufferEnd + bs.length ≤ bufferSize) :
      BufferOps c (c.shuffled bs) :=
    (append_ops hfit).trans (BufferOps.same (advance_cursors _ _).1 (advance_cursors _ _).2)
  have hclosed : BufferOps c c.closeData := BufferOps.same rfl rfl
  rcases ioShuffle_cases cfg env c with heq | heq | ⟨-, -, -, heq⟩ | heq | ⟨-, -, heq⟩
    | ⟨bs, -, -, hfit, heq | heq⟩
  · rw [heq]
    exact completeResponse_ops cfg c
  · rw [heq]
    exact BufferOps.same rfl rfl
  · rw [heq]
  · rw [heq]
    exact ioShuffleWrite_ops c
  · rw [heq]
    exact hclosed.trans (ioShuffleWrite_ops _)
  · rw [heq]
    exact (hshuffled hfit).trans (completeResponse_ops cfg _)
  · rw [heq]
    exact (hshuffled hfit).trans (ioShuffleWrite_ops _)

lemma writeFromPipe_ops (c : Conn) : BufferOps c (writeFromPipe c).2 := by
  rcases writeFromPipe_cases c with ⟨-, ⟨-, heq⟩ | ⟨-, heq⟩⟩ | ⟨t, -, heq⟩ | ⟨t, heq⟩ | ⟨t, heq⟩
    | ⟨t, n, -, ⟨-, heq⟩ | ⟨-, heq⟩⟩
  · rw [heq]
  all_goals
    rw [heq]
    exact BufferOps.same rfl rfl

lemma cgiLocation_ops (buf : ℕ) (c : Conn) : BufferOps c (cgiLocation cfg env buf c) := by
  have hcut : BufferOps c (c.endLocation buf) := by
    obtain ⟨m, hm⟩ := c.endLocation_eq buf
    rw [hm]
    exact BufferOps.same rfl rfl
  rcases cgiLocation_cases cfg env buf c with heq | ⟨url, moreHdr, heq⟩
  · rw [heq]
    exact sendRBadRequest_ops cfg env c
  · rw [heq]
    exact hcut.trans (sendRMovedTemp_ops cfg env _ url moreHdr)

/-- **The merge of `process_cgi_header`** is a sequence of operations. -/
lemma cgiMerge_ops (blank : ℕ) (c : Conn) : BufferOps c (cgiMerge cfg env blank c).2 := by
  have hok := (sendRRequestOk_fills cfg env c).ops
  unfold cgiMerge
  extract_lets d e howmuch f g
  have hd : BufferOps c d := hok
  have he : BufferOps d e := by
    show BufferOps d (if d.req.method = .head then _ else d)
    split_ifs <;> exact BufferOps.same rfl rfl
  clear_value e
  have hmoved (hfit : ¬bufferSize < e.req.bufferEnd + howmuch) : BufferOps e f := by
    refine BufferOps.of_op (.fill howmuch (by omega) rfl ?_)
    show e.req.bufferEnd + (e.req.buffer.slice e.req.headerLine.off howmuch).length = _
    rw [Mem.length_slice]
  refine hd.trans (he.trans ?_)
  split_ifs with hfull
  · have hdrop : BufferOps e ((e.upd fun r => { r with bufferStart := 0, bufferEnd := 0 }).emit
        .dropped) := BufferOps.of_op (.empty rfl rfl)
    exact BufferOps.snd (hdrop.trans (sendRError_ops cfg env _))
  · exact BufferOps.snd (BufferOps.flush (hmoved hfull))
  · exact BufferOps.snd (BufferOps.flush (hmoved hfull))

lemma processCgiHeader_ops (c : Conn) : BufferOps c (processCgiHeader cfg env c).2 := by
  have hbegun : BufferOps c c.cgiBegun := BufferOps.same rfl rfl
  rcases processCgiHeader_cases cfg env c with heq | ⟨k, -, ⟨-, heq⟩ | heq | ⟨-, heq⟩ | heq⟩
  · rw [heq]
    exact BufferOps.snd (hbegun.trans (sendRBadGateway_ops cfg env _))
  · rw [heq]
    exact BufferOps.same rfl rfl
  · rw [heq]
    exact BufferOps.same rfl rfl
  · rw [heq]
    have hmoved := hbegun.trans (cgiLocation_ops cfg env c.req.headerLine.off c.cgiBegun)
    exact BufferOps.snd (hmoved.trans (BufferOps.same rfl rfl))
  · rw [heq]
    exact hbegun.trans (cgiMerge_ops cfg env _ _)

lemma readFromPipe_ops (c : Conn) : BufferOps c (readFromPipe cfg env c).2 := by
  have hheader {d : Conn} (hs : d.req.bufferStart = c.req.bufferStart)
      (he : d.req.bufferEnd = c.req.bufferEnd) : BufferOps c (processCgiHeader cfg env d).2 :=
    (BufferOps.same hs he).trans (processCgiHeader_ops cfg env d)
  rcases readFromPipe_cases cfg env c with ⟨-, ⟨-, heq⟩ | ⟨-, heq⟩⟩
    | ⟨-, ⟨-, heq⟩ | ⟨-, heq⟩ | ⟨-, heq⟩ | ⟨-, ⟨-, heq⟩ | ⟨-, heq⟩⟩
      | ⟨b, bs, -, ⟨-, heq⟩ | ⟨-, heq⟩ | ⟨-, heq⟩⟩⟩
  · rw [heq]
    exact hheader rfl rfl
  · rw [heq]
    exact BufferOps.same rfl rfl
  · rw [heq]
  · rw [heq]
  · rw [heq]
    exact BufferOps.same rfl rfl
  · rw [heq]
    exact hheader rfl rfl
  · rw [heq]
    exact BufferOps.same rfl rfl
  · rw [heq]
    have hpiped (bs : Bytes) : BufferOps c (c.pipedIn bs) := BufferOps.same rfl rfl
    exact (hpiped _).trans (writeFromPipe_ops _)
  · rw [heq]
    exact BufferOps.same rfl rfl
  · rw [heq]
    exact hheader rfl rfl

lemma processDone_ops (c : Conn) : BufferOps c (processDone c).2 := by
  have hflush : BufferOps c (reqFlush c).2 := BufferOps.of_op (.flush c)
  rw [processDone]
  generalize reqFlush c = res at hflush ⊢
  obtain ⟨retval, d⟩ := res
  dsimp only at hflush ⊢
  split_ifs
  · exact BufferOps.snd (hflush.trans (BufferOps.same rfl rfl))
  · exact hflush
  · exact hflush

end

/-! ### The header -/

/-- The cursors are where they were. -/
def SameCursors (c d : Conn) : Prop :=
  d.req.bufferStart = c.req.bufferStart ∧ d.req.bufferEnd = c.req.bufferEnd

lemma SameCursors.trans (h : SameCursors c d) (h' : SameCursors d e) : SameCursors c e :=
  ⟨h'.1.trans h.1, h'.2.trans h.2⟩

/-- The header is being read: operations on the buffer end the request or make it busy. -/
structure HeaderOps (c : Conn) (res : ℤ × Conn) : Prop where
  ops : BufferOps c res.2
  idle : res.1 ≠ 0 → Busy res.2 ∨ SameCursors c res.2

namespace HeaderOps

variable {n : ℤ} {res : ℤ × Conn}

lemma ended (h : BufferOps c d) : HeaderOps c (0, d) := ⟨h, fun hne => absurd rfl hne⟩

lemma same (h : SameCursors c d) : HeaderOps c (n, d) :=
  ⟨BufferOps.same h.1 h.2, fun _ => Or.inr h⟩

lemma trans (h : SameCursors c d) (h' : HeaderOps d res) : HeaderOps c res :=
  ⟨(BufferOps.same h.1 h.2).trans h'.ops, fun hne => (h'.idle hne).imp_right h.trans⟩

end HeaderOps

lemma Parses.sameCursors (h : Parses c d) : SameCursors c d := by
  obtain ⟨_, _, _, _, _, ⟨_, _, _, _, _, _, _, _, _, _, _, _, _, _, _, _, rfl⟩, rfl⟩ := h
  exact ⟨rfl, rfl⟩

section

variable (cfg : Config) (env : Env)

lemma LineRefused.ops {cfg : Config} {env : Env} (h : LineRefused cfg env c d) :
    BufferOps c d := by
  rcases h with h | h | h | h <;> rw [h]
  · exact sendRBadRequest_ops cfg env c
  · exact sendRNotImplemented_ops cfg env c
  · exact sendRInvalidRange_ops cfg env c

lemma sendPages_ops (page : Option Page) (c : Conn) : BufferOps c (sendPages cfg env page c) := by
  cases page with
  | none => exact .refl
  | some page =>
      cases page with
      | badRequest => exact sendRBadRequest_ops cfg env c
      | forbidden => exact sendRForbidden_ops cfg env c
      | notFound => exact sendRNotFound_ops cfg env c
      | movedTemp url => exact sendRMovedTemp_ops cfg env c (.elsewhere url) fun _ => []

lemma acceptPost_ops (c : Conn) : HeaderOps c (acceptPost cfg env c) := by
  have hfile : SameCursors c (createTemporaryFile env c).2 := by
    rw [createTemporaryFile]
    cases env.mkstemp with
    | none => exact ⟨rfl, rfl⟩
    | some fd =>
        dsimp only
        split_ifs <;> exact ⟨rfl, rfl⟩
  unfold acceptPost
  extract_lets res d
  have hd : SameCursors c d := hfile
  clear_value d
  refine HeaderOps.trans hd ?_
  split_ifs
  · exact HeaderOps.ended (sendRError_ops cfg env d)
  · exact HeaderOps.same ⟨rfl, rfl⟩
  · exact HeaderOps.ended ((sendRError_ops cfg env d).trans (BufferOps.same rfl rfl))

/-- **`process_header_end`**: it comes before anything has left the buffer. -/
lemma processHeaderEnd_ops (c : Conn) (hstart : c.req.bufferStart = 0) :
    HeaderOps c (processHeaderEnd cfg env c) := by
  have hdecoded {r : Request} (h : Decodes c.req r) :
      SameCursors c { c.emit .headerEnd with req := r } := by
    obtain ⟨_, _, _, rfl⟩ := h
    exact ⟨rfl, rfl⟩
  rcases processHeaderEnd_cases cfg env c with ⟨-, r, hr, heq | heq⟩ | ⟨r, -, hr, heq⟩
  · rw [heq]
    exact HeaderOps.trans (hdecoded hr) (HeaderOps.ended (sendRError_ops cfg env _))
  · rw [heq]
    exact HeaderOps.trans (hdecoded hr) (HeaderOps.ended (sendRBadRequest_ops cfg env _))
  rw [heq]
  have hsame := hdecoded hr
  refine HeaderOps.trans hsame ?_
  generalize ({ c.emit .headerEnd with req := r } : Conn) = d at hsame ⊢
  have htrans : SameCursors d (translated cfg env d) := by
    obtain ⟨_, _, _, _, _, h⟩ := translateUri_translates cfg env env.scriptBuf d.req
    rw [translated, h]
    exact ⟨rfl, rfl⟩
  refine HeaderOps.trans htrans ?_
  have hzero : (translated cfg env d).req.bufferStart = 0 :=
    htrans.1.trans (hsame.1.trans hstart)
  rcases translateRequest_cases cfg env d with ⟨-, h⟩ | ⟨-, h⟩ | ⟨-, -, ⟨-, h⟩ | ⟨-, -, h⟩
    | ⟨-, -, h⟩⟩
  · rw [h]
    exact HeaderOps.ended ((sendPages_ops cfg env _ _).trans (BufferOps.same rfl rfl))
  · rw [h]
    exact HeaderOps.ended (sendRForbidden_ops cfg env _)
  · rw [h]
    exact acceptPost_ops cfg env _
  · rw [h]
    exact ⟨initCgi_ops cfg env _, fun hne => Or.inl ((initCgi_leads cfg env _).busy hne)⟩
  · rw [h]
    have hwrite : Busy ((translated cfg env d).setStatus .write) :=
      (by decide : ReqStatus.bodyRead.code ≤ ReqStatus.write.code)
    have hset : SameCursors (translated cfg env d) ((translated cfg env d).setStatus .write) :=
      ⟨rfl, rfl⟩
    generalize (translated cfg env d).setStatus .write = e at hwrite hset ⊢
    exact HeaderOps.trans hset ⟨initGet_ops cfg env e (hset.1.trans hzero),
      fun _ => Or.inl ((initGet_moves cfg env e).busy hwrite)⟩

lemma headerPost_ops (c : Conn) : HeaderOps c (headerPost cfg env c) := by
  unfold headerPost
  extract_lets d
  refine HeaderOps.trans (⟨rfl, rfl⟩ : SameCursors c d) ?_
  have hbad : HeaderOps d (0, sendRBadRequest cfg env d) :=
    HeaderOps.ended (sendRBadRequest_ops cfg env d)
  cases d.req.contentLength with
  | none => exact hbad
  | some off =>
      dsimp only
      split_ifs
      · exact hbad
      · exact hbad
      · exact HeaderOps.same ⟨rfl, rfl⟩

lemma headerBlankLine_ops (c : Conn) (hstart : c.req.bufferStart = 0) :
    HeaderOps c (headerBlankLine cfg env c) := by
  have hend := processHeaderEnd_ops cfg env c hstart
  have hbusy := (headerBlankLine_busy cfg env c).busy
  rw [headerBlankLine] at hbusy ⊢
  generalize processHeaderEnd cfg env c = res at hend hbusy ⊢
  obtain ⟨retval, d⟩ := res
  refine ⟨?_, fun hne => Or.inl (hbusy.resolve_left hne)⟩
  dsimp only
  split_ifs
  · exact hend.ops.trans (headerPost_ops cfg env d).ops
  · exact hend.ops

/-- **`read_header`**, which finds the buffer empty. -/
lemma readHeader_ops (c : Conn) (hstart : c.req.bufferStart = 0) :
    HeaderOps c (readHeader cfg env c) := by
  have hloop := readHeaderLoop_parses cfg env (c.req.clientStreamPos - c.req.parsePos) c
  rw [readHeader]
  cases hres : readHeaderLoop cfg env (c.req.clientStreamPos - c.req.parsePos) c with
  | ret value d =>
      rw [hres] at hloop
      obtain ⟨rfl, e, hparse, hrefused⟩ := hloop
      exact HeaderOps.trans hparse.sameCursors (HeaderOps.ended hrefused.ops)
  | loglineEnd d =>
      rw [hres] at hloop
      have hsame := Parses.sameCursors hloop
      exact HeaderOps.trans hsame (processHeaderEnd_ops cfg env d (hsame.1.trans hstart))
  | blankLine d =>
      rw [hres] at hloop
      have hsame := Parses.sameCursors hloop
      exact HeaderOps.trans hsame (headerBlankLine_ops cfg env d (hsame.1.trans hstart))
  | more d =>
      rw [hres] at hloop
      refine HeaderOps.trans (Parses.sameCursors hloop) ?_
      dsimp only
      split_ifs
      · rcases readHeaderMore_cases env d with ⟨-, heq⟩ | ⟨-, ⟨-, heq⟩ | ⟨-, heq⟩ | ⟨-, heq⟩
          | ⟨b, bs, -, heq⟩⟩
        all_goals
          rw [heq]
          exact HeaderOps.same ⟨rfl, rfl⟩
      · exact HeaderOps.same ⟨rfl, rfl⟩

end

/-! ### Visits -/

/-- Between two visits the cursors are in order, and the buffer is empty while a header is being
read. -/
structure InOrder (c : Conn) : Prop where
  buffered : Buffered c.req
  idle : ¬Busy c → c.req.bufferStart = 0 ∧ c.req.bufferEnd = 0

lemma InOrder.of_busy (h : Buffered c.req) (hbusy : Busy c) : InOrder c :=
  ⟨h, fun hnot => absurd hbusy hnot⟩

lemma InOrder.of_zero (hs : c.req.bufferStart = 0) (he : c.req.bufferEnd = 0) : InOrder c :=
  ⟨⟨by omega, by omega⟩, fun _ => ⟨hs, he⟩⟩

lemma busy_of_done_le (h : ReqStatus.done.code ≤ c.req.status.code) : Busy c :=
  (by decide : ReqStatus.bodyRead.code ≤ ReqStatus.done.code).trans h

section

variable (cfg : Config) (env : Env)

/-- What a step of the request does that finds the cursors in order: operations, behind which
they are in order between the visits, unless the request is to be freed. -/
structure KeepsOrder (c : Conn) (res : ℤ × Conn) : Prop where
  ops : BufferOps c res.2
  order : res.1 ≠ 0 → InOrder res.2

/-- A handler for a request that is not given up. -/
lemma handleStatus_keepsOrder (h : InOrder c) (hlive : c.req.status.code ≤ ReqStatus.done.code) :
    KeepsOrder c (handleStatus cfg env c) := by
  by_cases hbusy : Busy c
  · have hops : BufferOps c (handleStatus cfg env c).2 := by
      rw [handleStatus]
      rw [Busy] at hbusy
      cases hstatus : c.req.status with
      | readHeader | oneCr | oneLf | twoCr =>
          rw [hstatus] at hbusy
          exact absurd hbusy (by decide)
      | bodyRead => exact readBody_ops cfg env c
      | bodyWrite => exact writeBody_ops cfg env c
      | write => exact processGet_ops cfg env c
      | pipeRead => exact readFromPipe_ops cfg env c
      | pipeWrite => exact writeFromPipe_ops c
      | ioShuffle =>
          dsimp only
          split_ifs
          · exact ioShuffleSendfile_ops cfg c
          · exact ioShuffle_ops cfg env c
      | done => exact processDone_ops c
      | timedOut | dead =>
          rw [hstatus] at hlive
          exact absurd hlive (by decide)
    exact ⟨hops, fun hne => InOrder.of_busy (hops.buffered h.buffered)
      ((handleStatus_busy cfg env hbusy).busy.resolve_left hne)⟩
  · obtain ⟨hs, he⟩ := h.idle hbusy
    have hread := readHeader_ops cfg env c hs
    have heq : handleStatus cfg env c = readHeader cfg env c := by
      rw [handleStatus]
      rw [Busy] at hbusy
      cases hstatus : c.req.status with
      | readHeader | oneCr | oneLf | twoCr => rfl
      | _ =>
          rw [hstatus] at hbusy
          exact absurd (by decide) hbusy
    rw [heq]
    refine ⟨hread.ops, fun hne => ?_⟩
    rcases hread.idle hne with hgoes | hsame
    · exact InOrder.of_busy (hread.ops.buffered h.buffered) hgoes
    · exact InOrder.of_zero (hsame.1.trans hs) (hsame.2.trans he)

lemma flushFirst_ops (c : Conn) : BufferOps c (flushFirst c).2 := by
  have hflush : BufferOps c (reqFlush c).2 := BufferOps.of_op (.flush c)
  rw [flushFirst]
  generalize reqFlush c = res at hflush ⊢
  obtain ⟨retval, d⟩ := res
  split_ifs
  · dsimp only at hflush ⊢
    split_ifs
    · exact BufferOps.snd (hflush.trans (BufferOps.same rfl rfl))
    · exact hflush
    · exact hflush
  · exact .refl

lemma KeepsOrder.squash {n : ℤ} (h : KeepsOrder c (n, d)) (sigterm : Bool) :
    KeepsOrder c (n, if sigterm then d.squashKa else d) := by
  cases sigterm with
  | false => exact h
  | true =>
      refine ⟨h.ops.trans (BufferOps.same rfl rfl), fun hne => ?_⟩
      exact ⟨(h.order hne).buffered.congr rfl rfl, (h.order hne).idle⟩

/-- `process_requests` up to the switch on the return value. -/
lemma processRequest_keepsOrder (h : InOrder c)
    (hlive : c.req.status.code ≤ ReqStatus.done.code) :
    KeepsOrder c (processRequest cfg env c) := by
  have hops := flushFirst_ops c
  rcases flushFirst_cases c with ⟨hzero, -⟩ | ⟨t, -, -, -, heq⟩ | ⟨t, es, s, e, heq, -, hidle⟩
  · rw [processRequest]
    rcases hres : flushFirst c with ⟨retval, d⟩
    rw [hres] at hzero hops
    obtain rfl : retval = 0 := hzero
    exact KeepsOrder.squash ⟨hops, fun hne => absurd rfl hne⟩ env.sigterm
  · rw [processRequest_of_blocked heq]
    have hset : KeepsOrder c (-1, c.setTape t) :=
      ⟨BufferOps.same rfl rfl, fun _ => ⟨h.buffered.congr rfl rfl, h.idle⟩⟩
    exact hset.squash env.sigterm
  · rw [heq] at hops
    have hd : InOrder (c.cursors t es s e) := by
      refine ⟨hops.buffered h.buffered, fun hbusy => ?_⟩
      obtain ⟨hs, he⟩ := h.idle hbusy
      obtain ⟨hs', he'⟩ := hidle he
      exact ⟨hs'.trans hs, he'⟩
    have hhandled := handleStatus_keepsOrder cfg env hd hlive
    rw [processRequest_of_flush heq]
    refine KeepsOrder.squash ?_ env.sigterm
    exact ⟨hops.trans hhandled.ops, hhandled.order⟩

lemma releaseRequest_keepsOrder (c : Conn) : BufferOps c (releaseRequest cfg c) ∧
    ((releaseRequest cfg c).free = false → InOrder (releaseRequest cfg c)) := by
  rcases releaseRequest_cases cfg c with ⟨n, -, heq⟩ | ⟨n, -, heq⟩
  · rw [heq]
    exact ⟨BufferOps.of_op (.empty rfl rfl), fun _ => InOrder.of_zero rfl rfl⟩
  · rw [heq]
    exact ⟨BufferOps.same rfl rfl, nofun⟩

/-- `free_request` keeps the request for its buffer, recycles it, or gives it back. -/
lemma freeRequest_keepsOrder (c : Conn) (h : Buffered c.req) : BufferOps c (freeRequest cfg c) ∧
    ((freeRequest cfg c).free = false → InOrder (freeRequest cfg c)) := by
  have hrelease {d : Conn} (hd : BufferOps c d) : BufferOps c (releaseRequest cfg d) ∧
      ((releaseRequest cfg d).free = false → InOrder (releaseRequest cfg d)) :=
    (releaseRequest_keepsOrder cfg d).imp_left hd.trans
  rw [freeRequest]
  by_cases hbuf : c.req.bufferEnd ≠ 0 ∧ c.req.status.code < ReqStatus.timedOut.code
  swap
  · rw [if_neg hbuf]
    exact hrelease .refl
  rw [if_pos hbuf]
  have hset : BufferOps c (c.setStatus .done) := BufferOps.same rfl rfl
  have hflush : BufferOps c (reqFlush (c.setStatus .done)).2 := BufferOps.flush hset
  have hstatus : ReqStatus.done.code ≤ (reqFlush (c.setStatus .done)).2.req.status.code := by
    rcases (reqFlush_outputs (c.setStatus .done)).status with hs | hs
    · rw [hs]
      exact le_rfl
    · exact hs
  generalize reqFlush (c.setStatus .done) = res at hflush hstatus ⊢
  obtain ⟨i, d⟩ := res
  dsimp only at hflush hstatus ⊢
  split_ifs
  · exact hrelease (hflush.trans (BufferOps.same rfl rfl))
  · exact ⟨hflush, fun _ => InOrder.of_busy (hflush.buffered h) (busy_of_done_le hstatus)⟩
  · exact hrelease hflush

/-- **A visit** to a request that is not given up is a sequence of operations. -/
lemma visit_keepsOrder (h : InOrder c) (hlive : c.req.status.code ≤ ReqStatus.done.code) :
    BufferOps c (visit cfg env c) ∧
      ((visit cfg env c).free = false → InOrder (visit cfg env c)) := by
  have htape : BufferOps c { c with tape := env.sock } := BufferOps.same rfl rfl
  have hvisited : KeepsOrder { c with tape := env.sock }
      (processRequest cfg env { c with tape := env.sock }) :=
    processRequest_keepsOrder cfg env ⟨h.buffered, h.idle⟩ hlive
  rw [visit]
  generalize processRequest cfg env { c with tape := env.sock } = res at hvisited ⊢
  obtain ⟨retval, d⟩ := res
  have hd : BufferOps c d := htape.trans hvisited.ops
  dsimp only
  split_ifs with hzero
  · exact (freeRequest_keepsOrder cfg d (hd.buffered h.buffered)).imp_left hd.trans
  · exact ⟨hd, fun _ => hvisited.order hzero⟩
  · refine ⟨hd.trans (BufferOps.same rfl rfl), fun _ => InOrder.of_busy ?_ ?_⟩
    · exact (hd.buffered h.buffered).congr rfl rfl
    · exact busy_of_done_le done_le_dead

/-- A visit to a request that is given up frees it. -/
lemma visit_gone (hgone : ReqStatus.done.code < c.req.status.code) :
    (visit cfg env c).free = true := by
  have hcode : ReqStatus.timedOut.code ≤ c.req.status.code := hgone
  have hfreed {d : Conn} (hs : ReqStatus.timedOut.code ≤ d.req.status.code) :
      (freeRequest cfg d).free = true := by
    rw [freeRequest, if_neg fun hnot => absurd hnot.2 (not_lt.mpr hs)]
    rcases releaseRequest_cases cfg d with ⟨n, hkeeps, -⟩ | ⟨n, -, heq⟩
    · exact absurd hkeeps.1 (not_lt.mpr hs)
    · rw [heq]
  have hflush : flushFirst { c with tape := env.sock } = (1, { c with tape := env.sock }) :=
    if_neg fun hnot => absurd hnot.2 (not_lt.mpr hcode)
  have hhandled : handleStatus cfg env { c with tape := env.sock } =
      (0, ((({ c with tape := env.sock } : Conn).upd fun r => { r with bufferEnd := 0 }).emit
        .dropped).squashKa) := by
    rw [handleStatus]
    cases hstatus : c.req.status with
    | timedOut | dead => simp only
    | _ =>
        rw [hstatus] at hcode
        exact absurd hcode (by decide)
  rw [visit, processRequest_of_flush hflush, hhandled]
  dsimp only
  rw [if_pos rfl]
  refine hfreed ?_
  split_ifs <;> exact hcode

/-- **A step** keeps the cursors in order. -/
lemma step_inOrder (input : Input) (h : c.free = false → InOrder c)
    (hfree : (step cfg c input).free = false) : InOrder (step cfg c input) := by
  cases input with
  | visit env =>
      rw [step] at hfree ⊢
      split_ifs at hfree ⊢ with hc
      · rw [hc] at hfree
        cases hfree
      · have horder := h (Bool.eq_false_iff.mpr hc)
        rcases Nat.lt_or_ge ReqStatus.done.code c.req.status.code with hgone | hlive
        · rw [visit_gone cfg env hgone] at hfree
          cases hfree
        · exact (visit_keepsOrder cfg env horder hlive).2 hfree
  | expire timedOut =>
      rw [step] at hfree ⊢
      split_ifs at hfree ⊢ with hc htimed
      · rw [hc] at hfree
        cases hfree
      · have horder := h (Bool.eq_false_iff.mpr hc)
        refine InOrder.of_busy (horder.buffered.congr rfl rfl) ?_
        exact (by decide : ReqStatus.bodyRead.code ≤ ReqStatus.timedOut.code)
      · have horder := h (Bool.eq_false_iff.mpr hc)
        exact InOrder.of_busy (horder.buffered.congr rfl rfl) (busy_of_done_le done_le_dead)
  | accept env fd localIp remoteIp port tooMany =>
      rw [step] at hfree ⊢
      split_ifs at hfree ⊢ with hc
      · unfold getRequest
        extract_lets d e
        have he : InOrder e := InOrder.of_zero rfl rfl
        split_ifs
        · have hset : BufferOps e
              (e.upd fun r => { r with httpVersion := .http10, method := .get }) :=
            BufferOps.same rfl rfl
          have hpage := hset.trans (sendRServiceUnavailable_ops cfg env _)
          clear_value e
          generalize sendRServiceUnavailable cfg env
            (e.upd fun r => { r with httpVersion := .http10, method := .get }) = g at hpage ⊢
          have hg : Buffered g.req := BufferOps.buffered hpage he.buffered
          exact InOrder.of_busy (hg.congr rfl rfl) (busy_of_done_le le_rfl)
        · exact he
      · exact h hfree

end

/-- **The output buffer.** No operation takes the cursors out of order; where they are in order
the number of bytes that wait and the room that is left are what they should be; the composed
writers and every visit to a request that is not given up are sequences of operations; and so the
cursors are in order in every run. -/
theorem buffer_invariant (cfg : Config) :
    (∀ c d : Conn, BufferOps c d → Buffered c.req → Buffered d.req) ∧
    (∀ c : Conn, Buffered c.req →
      c.req.bytesToWrite = c.req.bufferEnd - c.req.bufferStart ∧
        ((bufferSize - c.req.bufferEnd : ℕ) : ℤ) = (bufferSize : ℤ) - c.req.bufferEnd) ∧
    (∀ (env : Env) (c : Conn),
      (c.req.bufferStart = 0 → BufferOps c (initGet cfg env c).2) ∧
        BufferOps c (ioShuffle cfg env c).2 ∧
        ∀ blank, BufferOps c (cgiMerge cfg env blank c).2) ∧
    ∀ is, (Run.runs (step cfg) Conn.initial is).free = false →
      Buffered (Run.runs (step cfg) Conn.initial is).req ∧
        ∀ env, (Run.runs (step cfg) Conn.initial is).req.status.code ≤ ReqStatus.done.code →
          BufferOps (Run.runs (step cfg) Conn.initial is)
            (visit cfg env (Run.runs (step cfg) Conn.initial is)) := by
  refine ⟨fun c d hops => BufferOps.buffered hops, fun c h => h.noWrap, fun env c =>
    ⟨initGet_ops cfg env c, ioShuffle_ops cfg env c, fun blank => cgiMerge_ops cfg env blank c⟩,
    fun is hfree => ?_⟩
  have hstep : ∀ (c : Conn) (input : Input), (c.free = false → InOrder c) → True →
      (step cfg c input).free = false → InOrder (step cfg c input) :=
    fun c input h _ => step_inOrder cfg input h
  have hrun := Run.runs_invariant hstep is Conn.initial nofun (Run.allowed_true _ _ is)
  exact ⟨(hrun hfree).buffered, fun env hlive => (visit_keepsOrder cfg env (hrun hfree) hlive).1⟩

end

end Yabwf
