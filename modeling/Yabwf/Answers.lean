import Yabwf.Lib.Messages
import Yabwf.MovedPage
import Yabwf.Numerals

/-!
The responses of `response.c`, read back as messages.

* `Writes`: a function queues a text that it makes of the request, or gives the request up.
* `Answer`, `Answer.message`: the responses that the server makes up by itself, and what they say.
* `Answer.writes`: the functions of `response.c` queue the texts of their messages.
* `read_answer`: a client that splits what has been queued into lines gets the message back, so
  that neither the URI nor the URL of a redirection adds a field or ends the head.
-/

namespace Yabwf

/-! ### Functions that queue a text -/

/-- A function queues the text and changes nothing else, or it gives the request up. One that has
been given up stays so. -/
structure Writes (text : Request → Bytes) (g : Conn → Conn) : Prop where
  text_same : ∀ r b n, text { r with buffer := b, bufferEnd := n } = text r
  live : ∀ c : Conn, c.req.status.code ≤ ReqStatus.done.code →
    Wrote (text c.req) c (g c) ∨ GaveUp c (g c)
  dead : ∀ c c' : Conn, GaveUp c c' → GaveUp c (g c')

namespace Writes

variable {t t' : Request → Bytes} {g g' : Conn → Conn}

lemma text_wrote (h : Writes t g) {bs : Bytes} {c c' : Conn} (hw : Wrote bs c c') :
    t c'.req = t c.req := by
  rw [hw.req]
  exact h.text_same ..

/-- One function after the other. -/
lemma append (h : Writes t g) (h' : Writes t' g') :
    Writes (fun r => t r ++ t' r) (fun c => g' (g c)) where
  text_same r b n := by simp only [h.text_same, h'.text_same]
  live c hlive := by
    rcases h.live c hlive with hw | hg
    · rcases h'.live (g c) (by rwa [hw.status]) with hw' | hg'
      · rw [h'.text_wrote hw] at hw'
        exact .inl (hw.trans hw')
      · exact .inr (hw.gaveUp hg')
    · exact .inr (h'.dead c _ hg)
  dead c c' hg := h'.dead c _ (h.dead c c' hg)

lemma congr (h : Writes t g) (ht : ∀ r, t r = t' r) : Writes t' g :=
  (funext ht : t = t') ▸ h

lemma skip : Writes (fun _ => []) (fun c => c) :=
  ⟨fun _ _ _ => rfl, fun c _ => .inl (Wrote.refl c), fun _ _ hg => hg⟩

/-- `req_write`. -/
lemma write (msg : Bytes) : Writes (fun _ => msg) (reqWrite msg) :=
  ⟨fun _ _ _ => rfl, fun _ hlive => reqWrite_cases hlive msg, fun _ _ hg => hg.reqWrite msg⟩

lemma note {e : Event} (he : e = .headed ∨ e = .promised) :
    Writes (fun _ => []) (Conn.note e) where
  text_same _ _ _ := rfl
  live c _ := .inl (note_wrote he c)
  dead c c' hg := by
    rw [Conn.note]
    split_ifs
    · exact hg
    · refine hg.step hg.dead ⟨[e], rfl, ?_⟩
      rcases he with rfl | rfl <;> simp

/-- A function that looks at the request first. -/
lemma withReq {t : Request → Request → Bytes} {g : Request → Conn → Conn}
    (h : ∀ r, Writes (t r) (g r))
    (ht : ∀ r b n, t { r with buffer := b, bufferEnd := n } = t r) :
    Writes (fun r => t r r) (fun c => g c.req c) where
  text_same r b n := by rw [ht, (h r).text_same]
  live c hlive := (h c.req).live c hlive
  dead c c' hg := (h c'.req).dead c c' hg

/-- A function that depends on the request. -/
lemma ite {p : Request → Prop} [DecidablePred p]
    (hp : ∀ r b n, p { r with buffer := b, bufferEnd := n } ↔ p r) (h : Writes t g)
    (h' : Writes t' g') :
    Writes (fun r => if p r then t r else t' r) (fun c => if p c.req then g c else g' c) where
  text_same r b n := by
    by_cases hr : p r
    · rw [if_pos ((hp r b n).mpr hr), if_pos hr, h.text_same]
    · rw [if_neg fun hr' => hr ((hp r b n).mp hr'), if_neg hr, h'.text_same]
  live c hlive := by
    by_cases hc : p c.req
    · rw [if_pos hc, if_pos hc]
      exact h.live c hlive
    · rw [if_neg hc, if_neg hc]
      exact h'.live c hlive
  dead c c' hg := by
    split_ifs
    · exact h.dead c c' hg
    · exact h'.dead c c' hg

end Writes

lemma escapeLoop_done {guardBand : ℕ} {escape : UInt8 → Bytes} {left : ℕ} {msg : Bytes}
    (h : (escapeLoop guardBand escape left msg).2 = []) :
    (escapeLoop guardBand escape left msg).1 = msg.flatMap escape := by
  induction msg generalizing left with
  | nil => rfl
  | cons b msg ih =>
      rw [escapeLoop] at h ⊢
      split_ifs at h ⊢
      exact congrArg (escape b ++ ·) (ih h)

/-- The escaping writers on a string that does not lie in the buffer. -/
lemma writes_escape (guardBand : ℕ) (escape : UInt8 → Bytes) (msg : Bytes) :
    Writes (fun _ => msg.flatMap escape)
      (reqWriteEscapeText guardBand escape (.elsewhere msg)) where
  text_same _ _ _ := rfl
  live c hlive := by
    have hstatus : c.req.status ≠ .dead := fun hdead => by
      rw [hdead] at hlive
      exact absurd hlive (by decide)
    rw [reqWriteEscapeText, reqWriteEscape]
    by_cases hdone : (escapeLoop guardBand escape (bufferSize - c.req.bufferEnd) msg).2 = []
    · rw [if_pos (Or.inl hdone), escapeLoop_done hdone]
      exact .inl (append_wrote _ c)
    · rw [if_neg]
      · exact .inr ((append_wrote _ c).gaveUp (die_gaveUp _))
      · exact not_or.mpr ⟨hdone, hstatus⟩
  dead c c' hg := by
    rw [reqWriteEscapeText, reqWriteEscape]
    rw [if_pos (Or.inr (hg.append _).dead)]
    exact hg.append _

/-! ### The lines of a head -/

/-- The characters that structure a head. -/
def httpMarks : Messages.Marks UInt8 := ⟨13, 10, 58, 32, by decide⟩

/-- A field with its line end. -/
def fieldLine (f : Bytes × Bytes) : Bytes := Messages.line httpMarks (Messages.field httpMarks f)

/-- The field that `print_ka_phrase` writes, and the one behind it. -/
def kaFields (cfg : Config) (r : Request) : List (Bytes × Bytes) :=
  if 0 < r.kacount ∧ r.keepalive = .active ∧ r.responseStatus < 500 then
    [(str "Connection", str "Keep-Alive"),
      (str "Keep-Alive",
        str "timeout=" ++ simpleItoa cfg.kaTimeout ++ str ", max=" ++ simpleItoa r.kacount)]
  else [(str "Connection", str "close")]

/-- The fields that all responses have. -/
def headFields (cfg : Config) (env : Env) (r : Request) : List (Bytes × Bytes) :=
  (str "Date", env.rfc822 0) ::
    ((if cfg.concealServerIdentity then [] else [(str "Server", serverVersion)]) ++
      (str "Accept-Ranges", str "bytes") :: kaFields cfg r)

/-- `; charset=`, behind a type of text. -/
def charsetText (cfg : Config) (mimeType : Bytes) : Bytes :=
  match cfg.defaultCharset with
  | some charset =>
      if hasPrefixCase (str "text") mimeType then str "; charset=" ++ charset else []
  | none => []

/-- The field of `print_content_type`. -/
def contentTypeField (cfg : Config) (r : Request) : Bytes × Bytes :=
  (str "Content-Type",
    getMimeType cfg r.requestUri ++ charsetText cfg (getMimeType cfg r.requestUri))

/-- The field of the pages. -/
def htmlTypeField : Bytes × Bytes := (str "Content-Type", htmlType)

/-- A field with a number of bytes. -/
def lengthOf (n : ℕ) : Bytes × Bytes := (str "Content-Length", simpleItoa n)

/-- The field of `print_last_modified`. -/
def lastModifiedField (env : Env) (r : Request) : Bytes × Bytes :=
  (str "Last-Modified", env.rfc822 r.lastModified)

/-- The field of `print_content_range`. -/
def contentRangeField (r : Request) : Bytes × Bytes :=
  (str "Content-Range",
    str "bytes " ++ simpleItoa (r.ranges.headD ⟨0, 0⟩).start ++ str "-"
      ++ simpleItoa (r.ranges.headD ⟨0, 0⟩).stop ++ str "/" ++ simpleItoa r.filesize)

lemma fieldLine_eq (name value : Bytes) :
    fieldLine (name, value) = name ++ str ": " ++ value ++ crlf := by
  simp [fieldLine, Messages.line, Messages.field, httpMarks, str, crlf]

lemma kaText_eq (cfg : Config) (r : Request) :
    kaText cfg r = (kaFields cfg r).flatMap fieldLine := by
  rw [kaText, kaFields]
  split_ifs
  · simp only [List.flatMap_cons, List.flatMap_nil, fieldLine_eq, List.append_nil]
    rfl
  · rfl

lemma statusText_eq (cfg : Config) (env : Env) (line : String) (r : Request) :
    statusText cfg env line r
      = httpVerString r.httpVersion ++ str line ++ (headFields cfg env r).flatMap fieldLine := by
  rw [statusText, headFields, kaText_eq]
  split_ifs
  · simp only [List.flatMap_cons, fieldLine_eq, List.append_assoc, List.nil_append]
    rfl
  · simp only [List.flatMap_cons, List.flatMap_append, List.flatMap_nil, fieldLine_eq,
      List.append_assoc, List.append_nil]
    rfl

/-! ### The printers -/

lemma writes_kaPhrase (cfg : Config) : Writes (kaText cfg) (printKaPhrase cfg) := by
  have hpiece : ∀ r : Request, Writes
      (fun r' => if 0 < r'.kacount ∧ r'.keepalive = .active ∧ r'.responseStatus < 500 then
        str "Connection: Keep-Alive\r\nKeep-Alive: timeout=" ++ [] ++ simpleItoa cfg.kaTimeout
          ++ str ", max=" ++ simpleItoa r.kacount ++ crlf
        else str "Connection: close\r\n")
      (fun c => if 0 < c.req.kacount ∧ c.req.keepalive = .active ∧ c.req.responseStatus < 500 then
        c |> reqWrite (str "Connection: Keep-Alive\r\nKeep-Alive: timeout=") |> Conn.note .promised
          |> reqWrite (simpleItoa cfg.kaTimeout) |> reqWrite (str ", max=")
          |> reqWrite (simpleItoa r.kacount) |> reqWrite crlf
        else c |> reqWrite (str "Connection: close\r\n")) := by
    intro r
    have hkeep := (Writes.write (str "Connection: Keep-Alive\r\nKeep-Alive: timeout=")).append
      (Writes.note (Or.inr rfl))
    have hrest := (((hkeep.append (Writes.write (simpleItoa cfg.kaTimeout))).append
      (Writes.write (str ", max="))).append (Writes.write (simpleItoa r.kacount))).append
      (Writes.write crlf)
    exact Writes.ite (p := fun r' => 0 < r'.kacount ∧ r'.keepalive = .active ∧
      r'.responseStatus < 500) (fun _ _ _ => Iff.rfl) hrest
      (Writes.write (str "Connection: close\r\n"))
  refine (Writes.withReq hpiece fun _ _ _ => rfl).congr fun r => ?_
  rw [kaText]
  simp only [List.append_nil]

lemma writes_statusLine (cfg : Config) (env : Env) (line : String) :
    Writes (statusText cfg env line) (statusLine cfg env line) := by
  have hver : Writes (fun r => httpVerString r.httpVersion)
      (fun c => reqWrite (httpVerString c.req.httpVersion) c) :=
    Writes.withReq (fun r => Writes.write (httpVerString r.httpVersion)) fun _ _ _ => rfl
  have hline := (hver.append (Writes.write (str line))).append (Writes.note (Or.inl rfl))
  have hserver : Writes
      (fun _ => if cfg.concealServerIdentity then []
        else str "Server: " ++ serverVersion ++ crlf)
      (fun c => if cfg.concealServerIdentity then c
        else c |> reqWrite (str "Server: " ++ serverVersion ++ crlf)) :=
    Writes.ite (p := fun _ => cfg.concealServerIdentity = true) (fun _ _ _ => Iff.rfl) Writes.skip
      (Writes.write _)
  have hdate := hline.append (Writes.write (str "Date: " ++ env.rfc822 0 ++ crlf))
  have hall := ((hdate.append hserver).append
    (Writes.write (str "Accept-Ranges: bytes\r\n"))).append (writes_kaPhrase cfg)
  refine hall.congr fun r => ?_
  rw [statusText]
  simp only [List.append_nil]

lemma writes_contentType (cfg : Config) :
    Writes (fun r => fieldLine (contentTypeField cfg r)) (printContentType cfg) := by
  have hcharset : ∀ mimeType : Bytes, Writes (fun _ => charsetText cfg mimeType) (fun c =>
      match cfg.defaultCharset with
      | some charset =>
          if hasPrefixCase (str "text") mimeType then
            c |> reqWrite (str "; charset=") |> reqWrite charset
          else c
      | none => c) := by
    intro mimeType
    unfold charsetText
    cases cfg.defaultCharset with
    | none => exact Writes.skip
    | some charset =>
        dsimp only
        split_ifs
        · exact (Writes.write _).append (Writes.write charset)
        · exact Writes.skip
  have hpiece : ∀ r : Request, Writes
      (fun _ => str "Content-Type: " ++ getMimeType cfg r.requestUri
        ++ charsetText cfg (getMimeType cfg r.requestUri) ++ crlf) _ := fun r =>
    (((Writes.write (str "Content-Type: ")).append
      (Writes.write (getMimeType cfg r.requestUri))).append
      (hcharset (getMimeType cfg r.requestUri))).append (Writes.write crlf)
  refine (Writes.withReq hpiece fun _ _ _ => rfl).congr fun r => ?_
  rw [contentTypeField, fieldLine_eq]
  simp only [List.append_assoc]
  rfl

lemma writes_contentLength :
    Writes (fun r => fieldLine (lengthOf r.filesize)) printContentLength := by
  have hpiece : ∀ r : Request, Writes
      (fun _ => str "Content-Length: " ++ simpleItoa r.filesize ++ crlf) _ := fun r =>
    ((Writes.write (str "Content-Length: ")).append (Writes.write (simpleItoa r.filesize))).append
      (Writes.write crlf)
  refine (Writes.withReq hpiece fun _ _ _ => rfl).congr fun r => ?_
  rw [lengthOf, fieldLine_eq]
  rfl

lemma writes_lastModified (env : Env) :
    Writes (fun r => fieldLine (lastModifiedField env r)) (printLastModified env) := by
  have hpiece : ∀ r : Request, Writes
      (fun _ => str "Last-Modified: " ++ env.rfc822 r.lastModified ++ crlf) _ := fun r =>
    Writes.write (str "Last-Modified: " ++ env.rfc822 r.lastModified ++ crlf)
  refine (Writes.withReq hpiece fun _ _ _ => rfl).congr fun r => ?_
  rw [lastModifiedField, fieldLine_eq]
  rfl

lemma writes_contentRange :
    Writes (fun r => fieldLine (contentRangeField r)) printContentRange := by
  have hpiece : ∀ r : Request, Writes
      (fun _ => str "Content-Range: bytes " ++ simpleItoa (r.ranges.headD ⟨0, 0⟩).start ++ str "-"
        ++ simpleItoa (r.ranges.headD ⟨0, 0⟩).stop ++ str "/" ++ simpleItoa r.filesize ++ crlf) _ :=
    fun r => (((((((Writes.write (str "Content-Range: bytes ")).append
      (Writes.write (simpleItoa (r.ranges.headD ⟨0, 0⟩).start))).append
      (Writes.write (str "-"))).append
      (Writes.write (simpleItoa (r.ranges.headD ⟨0, 0⟩).stop))).append
      (Writes.write (str "/"))).append (Writes.write (simpleItoa r.filesize))).append
      (Writes.write crlf))
  refine (Writes.withReq hpiece fun _ _ _ => rfl).congr fun r => ?_
  rw [contentRangeField, fieldLine_eq]
  simp only [List.append_assoc]
  rfl

/-- The boundary in front of a part, if there is more than one. -/
def boundaryText (r : Request) : Bytes :=
  if 1 < r.numranges then str "\r\n--THIS_STRING_SEPARATES\r\n" else []

lemma writes_partialContentContinue (cfg : Config) :
    Writes (fun r => boundaryText r ++ fieldLine (contentTypeField cfg r)
      ++ fieldLine (contentRangeField r)) (printPartialContentContinue cfg) := by
  have hboundary : Writes boundaryText (fun c =>
      if 1 < c.req.numranges then c |> reqWrite (str "\r\n--THIS_STRING_SEPARATES\r\n") else c) :=
    Writes.ite (p := fun r => 1 < r.numranges) (fun _ _ _ => Iff.rfl) (Writes.write _) Writes.skip
  exact (hboundary.append (writes_contentType cfg)).append writes_contentRange

lemma writes_htmlField : Writes (fun _ => fieldLine htmlTypeField ++ crlf) htmlField :=
  (Writes.write (str "Content-Type: " ++ htmlType ++ str "\r\n\r\n")).congr fun r => by
    rw [htmlTypeField, fieldLine_eq]
    simp only [List.append_assoc]
    rfl

lemma writes_uriBody (before after : String) :
    Writes (fun r => str before ++ r.requestUri.flatMap escapeHtml ++ str after)
      (uriBody before after) :=
  Writes.withReq (fun r => ((Writes.write (str before)).append
    (writes_escape 6 escapeHtml r.requestUri)).append (Writes.write (str after))) fun _ _ _ => rfl

lemma writes_movedBody (before : String) (url : Bytes) :
    Writes (fun _ => str before ++ url.flatMap escapeHtml ++ movedEnd)
      (movedBody before (.elsewhere url)) :=
  ((Writes.write (str before)).append (writes_escape 6 escapeHtml url)).append
    (Writes.write movedEnd)

/-- The field that a redirection is about. -/
def locationField (url : Bytes) : Bytes × Bytes := (str "Location", url.flatMap escapeHttp)

lemma writes_movedFields (url : Bytes) :
    Writes (fun _ => fieldLine htmlTypeField ++ str "Location: " ++ url.flatMap escapeHttp)
      (movedFields (.elsewhere url)) := by
  have h := ((Writes.write (str "Content-Type: " ++ htmlType ++ crlf)).append
    (Writes.write (str "Location: "))).append (writes_escape 3 escapeHttp url)
  refine h.congr fun r => ?_
  rw [htmlTypeField, fieldLine_eq]
  rfl

/-! ### The responses -/

/-- The responses that the server makes up by itself. -/
inductive Answer
  | requestOk
  | noContent
  | partialContent
  | notModified
  | movedPerm (url : Bytes)
  | movedTemp (url : Bytes)
  | badRequest
  | forbidden
  | notFound
  | invalidRange
  | serverError
  | notImplemented
  | badGateway
  | serviceUnavailable

namespace Answer

/-- The function of `response.c`. -/
def send (cfg : Config) (env : Env) : Answer → Conn → Conn
  | requestOk => sendRRequestOk cfg env
  | noContent => sendRNoContent cfg env
  | partialContent => sendRPartialContent cfg env
  | notModified => sendRNotModified cfg env
  | movedPerm url => sendRMovedPerm cfg env url
  | movedTemp url => sendRMovedTemp cfg env (.elsewhere url) fun _ => []
  | badRequest => sendRBadRequest cfg env
  | forbidden => sendRForbidden cfg env
  | notFound => sendRNotFound cfg env
  | invalidRange => sendRInvalidRange cfg env
  | serverError => sendRError cfg env
  | notImplemented => sendRNotImplemented cfg env
  | badGateway => sendRBadGateway cfg env
  | serviceUnavailable => sendRServiceUnavailable cfg env

/-- The code of the response. -/
def code : Answer → ℕ
  | requestOk => 200
  | noContent => 204
  | partialContent => 206
  | notModified => 304
  | movedPerm _ => 301
  | movedTemp _ => 302
  | badRequest => 400
  | forbidden => 403
  | notFound => 404
  | invalidRange => 416
  | serverError => 500
  | notImplemented => 501
  | badGateway => 502
  | serviceUnavailable => 503

/-- The phrase behind the code. -/
def reason : Answer → String
  | requestOk => "OK"
  | noContent => "NO CONTENT"
  | partialContent => "Partial Content"
  | notModified => "Not Modified"
  | movedPerm _ => "Moved Permanently"
  | movedTemp _ => "Moved Temporarily"
  | badRequest => "Bad Request"
  | forbidden => "Forbidden"
  | notFound => "Not Found"
  | invalidRange => "Invalid Range"
  | serverError => "Server Error"
  | notImplemented => "Not Implemented"
  | badGateway => "Bad Gateway"
  | serviceUnavailable => "Service Unavailable"

/-- The request when its status line is written: only what has been found is kept alive. -/
def request (a : Answer) (r : Request) : Request :=
  if a.code < 300 then { r with responseStatus := a.code }
  else { r with keepalive := .stopped, responseStatus := a.code }

/-- The fields behind those that all responses have. -/
def fields (cfg : Config) (env : Env) (r : Request) : Answer → List (Bytes × Bytes)
  | requestOk => [lengthOf r.filesize, lastModifiedField env r, contentTypeField cfg r]
  | noContent => []
  | partialContent => lastModifiedField env r ::
      if 1 < r.numranges then
        [(str "Content-Type", str "multipart/byteranges; boundary=THIS_STRING_SEPARATES")]
      else
        [lengthOf (((r.ranges.headD ⟨0, 0⟩).stop + 2 ^ 64 - (r.ranges.headD ⟨0, 0⟩).start + 1)
            % 2 ^ 64),
          contentTypeField cfg r, contentRangeField r]
  | notModified => [contentTypeField cfg r]
  | movedPerm url => [htmlTypeField, locationField url]
  | movedTemp url => [htmlTypeField, locationField url]
  | invalidRange => [lengthOf invalidRangeBody.length, htmlTypeField]
  | serviceUnavailable => [lengthOf serviceUnavailableBody.length, htmlTypeField]
  | _ => [htmlTypeField]

/-- The start line. -/
def start (a : Answer) (r : Request) : Bytes :=
  httpVerString r.httpVersion ++ str " " ++ simpleItoa a.code ++ str " " ++ str a.reason

/-- The message with the body. -/
def message (a : Answer) (cfg : Config) (env : Env) (r : Request) (body : Bytes) :
    Messages.Message UInt8 :=
  ⟨a.start r, headFields cfg env (a.request r) ++ a.fields cfg env r, body⟩

end Answer

/-- What is queued in front of the body. -/
lemma text_message (line : String) {a : Answer}
    (hline : str line = str " " ++ simpleItoa a.code ++ str " " ++ str a.reason ++ crlf)
    (cfg : Config) (env : Env) (r : Request) (body : Bytes) :
    (a.message cfg env r body).text httpMarks
      = statusText cfg env line (a.request r)
        ++ ((a.fields cfg env r).flatMap fieldLine ++ crlf ++ body) := by
  have hver : (a.request r).httpVersion = r.httpVersion := by
    rw [Answer.request]
    split_ifs <;> rfl
  rw [statusText_eq, hline, hver, Answer.message, Messages.Message.text, Answer.start]
  have hend : ∀ l : Bytes, Messages.line httpMarks l = l ++ crlf := fun _ => rfl
  simp only [hend, List.flatMap_append, List.append_assoc, List.nil_append]
  rfl

/-! ### What is queued -/

/-- The text that is queued between two states, and the status that is logged for it. -/
structure Says (text : Bytes) (code : ℕ) (c c' : Conn) : Prop where
  text_eq : queuedText c c' = text
  status : c'.req.responseStatus = code

section

variable {bs : Bytes} {c d c' : Conn}

lemma GaveUp.of_trace (h : GaveUp d c') (htrace : d.trace = c.trace) : GaveUp c c' :=
  ⟨h.dead, htrace ▸ h.events⟩

lemma Wrote.says (h : Wrote bs d c') (htrace : d.trace = c.trace) :
    Says bs d.req.responseStatus c c' := by
  obtain ⟨es, htrace', htext, -, -⟩ := h.events
  refine ⟨?_, by rw [h.req]⟩
  rw [queuedText_eq (htrace'.trans (by rw [htrace])), htext]

lemma responseStatus_reqFlush (c : Conn) :
    (reqFlush c).2.req.responseStatus = c.req.responseStatus := by
  have hdone (d : Conn) : (flushDone d).2.req.responseStatus = d.req.responseStatus := by
    rw [flushDone]
    dsimp only
    split_ifs <;> rfl
  rw [reqFlush]
  simp only
  split_ifs with hfull hzero
  · rfl
  · exact hdone c
  · obtain ⟨t, ht⟩ := pop_eq c
    rcases hpop : c.pop with ⟨answer, d⟩
    rw [hpop] at ht
    simp only at ht
    subst ht
    cases answer with
    | again => rfl
    | intr | error => rfl
    | accept n => exact hdone _

/-- A page that has been flushed. -/
lemma Wrote.says_flushed (h : Wrote bs d c') (hlive : d.req.status.code ≤ ReqStatus.done.code)
    (htrace : d.trace = c.trace) : Says bs d.req.responseStatus c (reqFlush c').2 := by
  obtain ⟨es, htrace', htext, -, -⟩ := h.events
  obtain ⟨es', hflush, htext', -⟩ := reqFlush_events (c := c') (by rwa [h.status])
  have hall : (reqFlush c').2.trace = c.trace ++ (es ++ es') := by
    rw [hflush, htrace', htrace, List.append_assoc]
  refine ⟨?_, ?_⟩
  · rw [queuedText_eq hall, List.flatMap_append, htext, htext', List.append_nil]
  · rw [responseStatus_reqFlush, h.req]

end

/-- The request is given up, or what is queued is the message with the body. -/
def AnsweredBy (cfg : Config) (env : Env) (a : Answer) (c : Conn) (body : Bytes) : Prop :=
  GaveUp c (a.send cfg env c) ∨
    Says ((a.message cfg env c.req body).text httpMarks) a.code c (a.send cfg env c)

section

variable {cfg : Config} {env : Env} {a : Answer} {c : Conn} {tb : Request → Bytes}
  {fields body : Conn → Conn} {line : String}

lemma fields_request (cfg : Config) (env : Env) (a : Answer) (r : Request) :
    a.fields cfg env (a.request r) = a.fields cfg env r := by
  cases a <;> rfl

lemma request_eq (a : Answer) (r : Request) :
    ∃ ka, a.request r = { r with keepalive := ka, responseStatus := a.code } := by
  rw [Answer.request]
  split_ifs
  · exact ⟨_, rfl⟩
  · exact ⟨_, rfl⟩

/-- A function that queues the text of the message, with a flush behind it or without. -/
lemma answers_of_writes {t : Request → Bytes} {g : Conn → Conn} {bs : Bytes} (h : Writes t g)
    {d : Conn} (hreq : d.req = a.request c.req) (htrace : d.trace = c.trace)
    (hlive : c.req.status.code ≤ ReqStatus.done.code)
    (hsend : a.send cfg env c = g d ∨ a.send cfg env c = (reqFlush (g d)).2)
    (ht : t (a.request c.req) = (a.message cfg env c.req bs).text httpMarks) :
    AnsweredBy cfg env a c bs := by
  obtain ⟨ka, hka⟩ := request_eq a c.req
  have hcode : d.req.responseStatus = a.code := by rw [hreq, hka]
  have hlive' : d.req.status.code ≤ ReqStatus.done.code := by rwa [hreq, hka]
  rcases h.live d hlive' with hw | hg
  · rw [hreq, ht] at hw
    right
    rw [← hcode]
    rcases hsend with hsend | hsend <;> rw [hsend]
    · exact hw.says htrace
    · exact hw.says_flushed hlive' htrace
  · left
    rcases hsend with hsend | hsend <;> rw [hsend]
    · exact hg.of_trace htrace
    · exact (hg.of_trace htrace).reqFlush

/-- A page: its head, and its body, if the request is no `HEAD`. -/
lemma page_answers (front : Bytes)
    (hsend : a.send cfg env = sendRPage cfg env a.code line fields body)
    (hcode : ¬a.code < 300)
    (hline : str line = str " " ++ simpleItoa a.code ++ str " " ++ str a.reason ++ crlf)
    (hfields : Writes (fun r => (a.fields cfg env r).flatMap fieldLine ++ crlf ++ front) fields)
    (hbody : Writes tb body) (hlive : c.req.status.code ≤ ReqStatus.done.code)
    (hver : c.req.httpVersion ≠ .http09) :
    AnsweredBy cfg env a c
      (front ++ if c.req.method = .head then [] else tb (a.request c.req)) := by
  have hhead := Writes.ite (p := fun r => r.httpVersion = .http09) (fun _ _ _ => Iff.rfl)
    Writes.skip ((writes_statusLine cfg env line).append hfields)
  have hpage := hhead.append (Writes.ite (p := fun r => r.method = .head) (fun _ _ _ => Iff.rfl)
    Writes.skip hbody)
  have hreq : (c.squashKa.setResponse a.code).req = a.request c.req := by
    rw [Answer.request, if_neg hcode]
    rfl
  refine answers_of_writes hpage hreq rfl hlive (.inr (by rw [hsend]; rfl)) ?_
  obtain ⟨ka, hka⟩ := request_eq a c.req
  have hver' : ¬(a.request c.req).httpVersion = .http09 := by rwa [hka]
  have hmethod : (a.request c.req).method = c.req.method := by rw [hka]
  rw [if_neg hver', hmethod, fields_request, text_message line hline]
  simp only [List.append_assoc]

/-- A page with no other field than its type. -/
lemma html_answers (hfields : ∀ r, a.fields cfg env r = [htmlTypeField])
    (hsend : a.send cfg env = sendRPage cfg env a.code line htmlField body)
    (hcode : ¬a.code < 300)
    (hline : str line = str " " ++ simpleItoa a.code ++ str " " ++ str a.reason ++ crlf)
    (hbody : Writes tb body) (hlive : c.req.status.code ≤ ReqStatus.done.code)
    (hver : c.req.httpVersion ≠ .http09) : ∃ bs, AnsweredBy cfg env a c bs := by
  refine ⟨_, page_answers [] hsend hcode hline ?_ hbody hlive hver⟩
  refine writes_htmlField.congr fun r => ?_
  rw [hfields, List.flatMap_cons, List.flatMap_nil, List.append_nil, List.append_nil]

/-- The pages that say how long they are. -/
lemma length_answers (text : Bytes) (ending : Conn → Conn)
    (hfields : ∀ r, a.fields cfg env r = [lengthOf text.length, htmlTypeField])
    (hsend : a.send cfg env = sendRPage cfg env a.code line
      (fun c => c |> lengthField text |> ending) (reqWrite text))
    (hending : Writes (fun _ => crlf ++ fieldLine htmlTypeField ++ crlf) ending)
    (hcode : ¬a.code < 300)
    (hline : str line = str " " ++ simpleItoa a.code ++ str " " ++ str a.reason ++ crlf)
    (hlive : c.req.status.code ≤ ReqStatus.done.code) (hver : c.req.httpVersion ≠ .http09) :
    AnsweredBy cfg env a c (if c.req.method = .head then [] else text) := by
  have hlength := ((Writes.write (str "Content-Length: ")).append
    (Writes.write (simpleItoa text.length))).append hending
  refine page_answers [] hsend hcode hline (hlength.congr fun r => ?_)
    (Writes.write text) hlive hver
  rw [hfields, List.flatMap_cons, List.flatMap_cons, List.flatMap_nil, lengthOf,
    fieldLine_eq (str "Content-Length")]
  simp only [List.append_assoc, List.append_nil]
  rfl

lemma movedTo_answers (front url : Bytes) (hfields : ∀ r, a.fields cfg env r
      = [htmlTypeField, locationField url])
    {ending : Conn → Conn} {before : String}
    (hsend : a.send cfg env = sendRPage cfg env a.code line
      (fun c => c |> movedFields (.elsewhere url) |> ending) (movedBody before (.elsewhere url)))
    (hending : Writes (fun _ => crlf ++ crlf ++ front) ending) (hcode : ¬a.code < 300)
    (hline : str line = str " " ++ simpleItoa a.code ++ str " " ++ str a.reason ++ crlf)
    (hlive : c.req.status.code ≤ ReqStatus.done.code) (hver : c.req.httpVersion ≠ .http09) :
    ∃ bs, AnsweredBy cfg env a c bs := by
  refine ⟨_, page_answers front hsend hcode hline
    (((writes_movedFields url).append hending).congr fun r => ?_)
    (writes_movedBody before url) hlive hver⟩
  rw [hfields, List.flatMap_cons, List.flatMap_cons, List.flatMap_nil, locationField,
    fieldLine_eq (str "Location")]
  simp only [List.append_assoc, List.append_nil]
  rfl

end

section

variable (cfg : Config) (env : Env) {c : Conn}

lemma requestOk_answers (hlive : c.req.status.code ≤ ReqStatus.done.code)
    (hver : c.req.httpVersion ≠ .http09) (hcgi : c.req.cgiType = .none) :
    AnsweredBy cfg env .requestOk c [] := by
  have hrest := (((writes_statusLine cfg env " 200 OK\r\n").append writes_contentLength).append
    (writes_lastModified env)).append (writes_contentType cfg)
  refine answers_of_writes (d := c.setResponse 200) (hrest.append (Writes.write crlf)) rfl rfl hlive
    (.inl ?_) ?_
  · have hver' : ¬(c.setResponse 200).req.httpVersion = .http09 := hver
    have hcgi' : (statusLine cfg env " 200 OK\r\n" (c.setResponse 200)).req.cgiType = .none :=
      ((statusLine_outputs ..).cgiType).trans hcgi
    rw [Answer.send, sendRRequestOk, if_neg hver', if_pos hcgi']
  · rw [text_message " 200 OK\r\n" rfl]
    simp only [Answer.fields, List.flatMap_cons, List.flatMap_nil, List.append_assoc,
      List.append_nil]
    rfl

lemma noContent_answers (hlive : c.req.status.code ≤ ReqStatus.done.code)
    (hver : c.req.httpVersion ≠ .http09) (hcgi : c.req.cgiType = .none) :
    AnsweredBy cfg env .noContent c [] := by
  have hall := (writes_statusLine cfg env " 204 NO CONTENT\r\n").append (Writes.write crlf)
  refine answers_of_writes (d := c.setResponse 204) hall rfl rfl hlive (.inl ?_) ?_
  · have hver' : ¬(c.setResponse 204).req.httpVersion = .http09 := hver
    have hcgi' : (statusLine cfg env " 204 NO CONTENT\r\n" (c.setResponse 204)).req.cgiType
        = .none := ((statusLine_outputs ..).cgiType).trans hcgi
    rw [Answer.send, sendRNoContent, if_neg hver', if_pos hcgi']
  · rw [text_message " 204 NO CONTENT\r\n" rfl]
    simp only [Answer.fields, List.flatMap_nil, List.append_nil, List.nil_append]

lemma notModified_answers (hlive : c.req.status.code ≤ ReqStatus.done.code) :
    AnsweredBy cfg env .notModified c [] := by
  have hall := ((writes_statusLine cfg env " 304 Not Modified\r\n").append
    (writes_contentType cfg)).append (Writes.write crlf)
  refine answers_of_writes (d := c.squashKa.setResponse 304) hall rfl rfl hlive (.inr rfl) ?_
  rw [text_message " 304 Not Modified\r\n" rfl]
  simp only [Answer.fields, List.flatMap_cons, List.flatMap_nil, List.append_assoc,
    List.append_nil]
  rfl

/-- What `send_r_partial_content` writes between the date and the first part. -/
def partialText (r : Request) : Bytes :=
  if 1 < r.numranges then
    str "Content-Type: multipart/byteranges; boundary=THIS_STRING_SEPARATES\r\n" ++ crlf
  else
    fieldLine (lengthOf (((r.ranges.headD ⟨0, 0⟩).stop + 2 ^ 64 - (r.ranges.headD ⟨0, 0⟩).start + 1)
      % 2 ^ 64))

/-- The head of the first part, where there are more. -/
def partText (cfg : Config) (r : Request) : Bytes :=
  if 1 < r.numranges then
    str "\r\n--THIS_STRING_SEPARATES\r\n" ++ fieldLine (contentTypeField cfg r)
      ++ fieldLine (contentRangeField r) ++ crlf
  else []

lemma partialContent_answers (hlive : c.req.status.code ≤ ReqStatus.done.code) :
    AnsweredBy cfg env .partialContent c (partText cfg c.req) := by
  have hlength : ∀ n, Writes (fun _ => fieldLine (lengthOf n)) (fun c =>
      c |> reqWrite (str "Content-Length: ") |> reqWrite (simpleItoa n) |> reqWrite crlf) := by
    intro n
    refine (((Writes.write (str "Content-Length: ")).append (Writes.write (simpleItoa n))).append
      (Writes.write crlf)).congr fun r => ?_
    rw [lengthOf, fieldLine_eq]
    rfl
  have hpart : Writes partialText (fun c =>
      if 1 < c.req.numranges then
        c |> reqWrite (str "Content-Type: multipart/byteranges; boundary=THIS_STRING_SEPARATES\r\n")
          |> reqWrite crlf
      else
        let range := c.req.ranges.headD ⟨0, 0⟩
        c |> reqWrite (str "Content-Length: ")
          |> reqWrite (simpleItoa ((range.stop + 2 ^ 64 - range.start + 1) % 2 ^ 64))
          |> reqWrite crlf) :=
    Writes.ite (p := fun r => 1 < r.numranges) (fun _ _ _ => Iff.rfl)
      ((Writes.write _).append (Writes.write crlf))
      (Writes.withReq (fun r => hlength (((r.ranges.headD ⟨0, 0⟩).stop + 2 ^ 64
        - (r.ranges.headD ⟨0, 0⟩).start + 1) % 2 ^ 64)) fun _ _ _ => rfl)
  have hall := ((((writes_statusLine cfg env " 206 Partial Content\r\n").append
    (writes_lastModified env)).append hpart).append (writes_partialContentContinue cfg)).append
    (Writes.write crlf)
  refine answers_of_writes (d := c.setResponse 206) hall rfl rfl hlive (.inl rfl) ?_
  rw [text_message " 206 Partial Content\r\n" rfl, ← fields_request]
  have hpart' : partText cfg c.req = partText cfg (Answer.partialContent.request c.req) := rfl
  rw [hpart']
  generalize Answer.partialContent.request c.req = r
  rw [partialText, boundaryText, partText]
  unfold Answer.fields
  split_ifs
  · simp only [List.flatMap_cons, List.flatMap_nil, List.append_assoc, List.append_nil]
    rfl
  · simp only [List.flatMap_cons, List.flatMap_nil, List.append_assoc, List.append_nil,
      List.nil_append]

/-- `send_r_not_implemented` writes its body for every method. -/
lemma notImplemented_answers (hlive : c.req.status.code ≤ ReqStatus.done.code)
    (hver : c.req.httpVersion ≠ .http09) : ∃ bs, AnsweredBy cfg env .notImplemented c bs := by
  have hhead := Writes.ite (p := fun r => r.httpVersion = .http09) (fun _ _ _ => Iff.rfl)
    Writes.skip ((writes_statusLine cfg env " 501 Not Implemented\r\n").append writes_htmlField)
  obtain ⟨text, hsend⟩ : ∃ text : Bytes, Answer.notImplemented.send cfg env c
      = (reqFlush (reqWrite text (if (c.squashKa.setResponse 501).req.httpVersion = .http09
          then c.squashKa.setResponse 501
          else htmlField (statusLine cfg env " 501 Not Implemented\r\n"
            (c.squashKa.setResponse 501))))).2 := ⟨_, rfl⟩
  refine ⟨text, answers_of_writes (d := c.squashKa.setResponse 501)
    (hhead.append (Writes.write text)) rfl rfl hlive (.inr hsend) ?_⟩
  have hver' : ¬(Answer.notImplemented.request c.req).httpVersion = .http09 := hver
  rw [if_neg hver', text_message " 501 Not Implemented\r\n" rfl]
  simp only [Answer.fields, List.flatMap_cons, List.flatMap_nil, List.append_assoc,
    List.append_nil]

/-- The body is as long as the response says. -/
def LengthHolds (cfg : Config) (env : Env) (a : Answer) (c : Conn) (body : Bytes) : Prop :=
  400 ≤ a.code → c.req.method ≠ .head →
    ∀ v, (str "Content-Length", v) ∈ a.fields cfg env c.req → v = simpleItoa body.length

lemma lengthHolds_of_html {a : Answer} (h : a.fields cfg env c.req = [htmlTypeField])
    (body : Bytes) : LengthHolds cfg env a c body := by
  intro _ _ v hv
  rw [h, List.mem_singleton, htmlTypeField, Prod.mk.injEq] at hv
  exact absurd hv.1 (by decide)

lemma lengthHolds_of_length {a : Answer} (text : Bytes)
    (h : a.fields cfg env c.req = [lengthOf text.length, htmlTypeField]) :
    LengthHolds cfg env a c (if c.req.method = .head then [] else text) := by
  intro _ hmethod v hv
  rw [if_neg hmethod]
  rw [h, List.mem_cons, List.mem_singleton, htmlTypeField, lengthOf, Prod.mk.injEq,
    Prod.mk.injEq] at hv
  exact (hv.resolve_right fun h => absurd h.1 (by decide)).2

/-- What follows the location, where nothing else is said about it. -/
def endMoved (c : Conn) : Conn := c |> reqWrite crlf |> reqWrite [] |> reqWrite (str "\r\n\r\n")

lemma sendRMovedTemp_elsewhere (url : Bytes) :
    sendRMovedTemp cfg env (.elsewhere url) (fun _ => []) = sendRPage cfg env 302
      " 302 Moved Temporarily\r\n" (fun c => endMoved (movedFields (.elsewhere url) c))
      (movedBody movedAnchor (.elsewhere url)) := by
  unfold sendRMovedTemp movedAnchor
  unfold endMoved
  with_reducible rfl

/-- Each response queues its message. -/
lemma exists_answers (a : Answer) (hlive : c.req.status.code ≤ ReqStatus.done.code)
    (hver : c.req.httpVersion ≠ .http09) (hcgi : c.req.cgiType = .none) :
    ∃ body, AnsweredBy cfg env a c body ∧ LengthHolds cfg env a c body := by
  have hfound : ∀ {a : Answer}, a.code < 400 → ∀ {body}, AnsweredBy cfg env a c body →
      ∃ body, AnsweredBy cfg env a c body ∧ LengthHolds cfg env a c body :=
    fun hcode body h => ⟨body, h, fun hle => absurd hle (Nat.not_le.mpr hcode)⟩
  have hhtml : ∀ {a : Answer}, a.fields cfg env c.req = [htmlTypeField] →
      (∃ body, AnsweredBy cfg env a c body) →
      ∃ body, AnsweredBy cfg env a c body ∧ LengthHolds cfg env a c body := by
    rintro a hfields ⟨body, h⟩
    exact ⟨body, h, lengthHolds_of_html cfg env hfields body⟩
  cases a with
  | requestOk => exact hfound (by decide) (requestOk_answers cfg env hlive hver hcgi)
  | noContent => exact hfound (by decide) (noContent_answers cfg env hlive hver hcgi)
  | partialContent => exact hfound (by decide) (partialContent_answers cfg env hlive)
  | notModified => exact hfound (by decide) (notModified_answers cfg env hlive)
  | movedPerm url =>
      have hending : Writes (fun _ => crlf ++ crlf ++ []) (reqWrite (str "\r\n\r\n")) :=
        (Writes.write (str "\r\n\r\n")).congr fun _ => by decide
      have hline : str " 301 Moved Permanently\r\n"
          = str " " ++ simpleItoa 301 ++ str " " ++ str "Moved Permanently" ++ crlf := rfl
      obtain ⟨body, h⟩ := movedTo_answers (a := .movedPerm url) [] url (fun _ => rfl) rfl
        hending (show ¬301 < 300 by decide) hline hlive hver
      exact hfound (a := .movedPerm url) (show 301 < 400 by decide) h
  | movedTemp url =>
      -- the text behind the location is empty: the body begins with a line end
      have hending : Writes (fun _ => crlf ++ crlf ++ crlf) endMoved :=
        (((Writes.write crlf).append (Writes.write [])).append
          (Writes.write (str "\r\n\r\n"))).congr fun _ => by decide
      have hline : str " 302 Moved Temporarily\r\n"
          = str " " ++ simpleItoa 302 ++ str " " ++ str "Moved Temporarily" ++ crlf := rfl
      have hsend : (Answer.movedTemp url).send cfg env = _ := sendRMovedTemp_elsewhere cfg env url
      obtain ⟨body, h⟩ := movedTo_answers (a := .movedTemp url) crlf url (fun _ => rfl)
        hsend hending (show ¬302 < 300 by decide) hline hlive hver
      exact hfound (a := .movedTemp url) (show 302 < 400 by decide) h
  | badRequest =>
      exact hhtml rfl (html_answers (fun _ => rfl) rfl (by decide) rfl (Writes.write _) hlive hver)
  | forbidden =>
      exact hhtml rfl
        (html_answers (fun _ => rfl) rfl (by decide) rfl (writes_uriBody ..) hlive hver)
  | notFound =>
      exact hhtml rfl
        (html_answers (fun _ => rfl) rfl (by decide) rfl (writes_uriBody ..) hlive hver)
  | invalidRange =>
      exact ⟨_, length_answers invalidRangeBody _ (fun _ => rfl) rfl (Writes.write _) (by decide)
        rfl hlive hver, lengthHolds_of_length cfg env invalidRangeBody rfl⟩
  | serverError =>
      exact hhtml rfl (html_answers (fun _ => rfl) rfl (by decide) rfl (Writes.write _) hlive hver)
  | notImplemented => exact hhtml rfl (notImplemented_answers cfg env hlive hver)
  | badGateway =>
      exact hhtml rfl (html_answers (fun _ => rfl) rfl (by decide) rfl (Writes.write _) hlive hver)
  | serviceUnavailable =>
      have hending : Writes (fun _ => crlf ++ fieldLine htmlTypeField ++ crlf)
          (fun c => c |> reqWrite crlf |> htmlField) :=
        ((Writes.write crlf).append writes_htmlField).congr fun _ => (List.append_assoc ..).symm
      exact ⟨_, length_answers serviceUnavailableBody (fun c => c |> reqWrite crlf |> htmlField)
        (fun _ => rfl) rfl hending (by decide) rfl hlive hver,
        lengthHolds_of_length cfg env serviceUnavailableBody rfl⟩

end

/-! ### Heads that can be read -/

/-- What the configuration and the clock put into a head has no line end in it, nor a blank at its
beginning. -/
structure PlainTexts (cfg : Config) (env : Env) : Prop where
  date : ∀ t, Messages.Value httpMarks (env.rfc822 t)
  mime : ∀ uri, Messages.Value httpMarks (getMimeType cfg uri)
  charset : ∀ charset, cfg.defaultCharset = some charset → Messages.OneLine httpMarks charset

/-- The names of the fields that all responses have. -/
def headNames : List Bytes :=
  [str "Date", str "Server", str "Accept-Ranges", str "Connection", str "Keep-Alive"]

/-- The names of the other fields. -/
def fieldNames : List Bytes :=
  [str "Content-Length", str "Last-Modified", str "Content-Type", str "Content-Range",
    str "Location"]

/-- A field that can be read. -/
def PlainField (f : Bytes × Bytes) : Prop :=
  Messages.Name httpMarks f.1 ∧ Messages.Value httpMarks f.2

lemma plainField {name value : Bytes} (hname : name ∈ headNames ++ fieldNames)
    (hvalue : Messages.Value httpMarks value) : PlainField (name, value) := by
  have hall : ∀ name ∈ headNames ++ fieldNames, (13 ∉ name ∧ 10 ∉ name) ∧ name ≠ [] ∧ 58 ∉ name := by
    decide
  obtain ⟨hone, hne, hcolon⟩ := hall name hname
  exact ⟨⟨hone, hne, hcolon⟩, hvalue⟩

lemma value_of_notMem {l : Bytes} (hcr : 13 ∉ l) (hlf : 10 ∉ l) (hblank : 32 ∉ l) :
    Messages.Value httpMarks l :=
  ⟨⟨hcr, hlf⟩, fun hhead => hblank (List.mem_of_mem_head? hhead)⟩

lemma value_append {l l' : Bytes} (h : Messages.Value httpMarks l)
    (h' : Messages.Value httpMarks l') : Messages.Value httpMarks (l ++ l') := by
  refine ⟨h.oneLine.append h'.oneLine, ?_⟩
  cases l with
  | nil => exact h'.head
  | cons b l => exact h.head

lemma value_cons_append {b : UInt8} {l l' : Bytes} (h : Messages.Value httpMarks (b :: l))
    (h' : Messages.OneLine httpMarks l') : Messages.Value httpMarks (b :: l ++ l') :=
  ⟨h.oneLine.append h', h.head⟩

lemma value_simpleItoa (n : ℕ) : Messages.Value httpMarks (simpleItoa n) := by
  have hdigit : ∀ b, isDigit b = false → b ∉ simpleItoa n := by
    intro b hb hmem
    rw [simpleItoa_eq] at hmem
    exact absurd (numeral_digits _ b hmem) (by rw [hb]; exact Bool.false_ne_true)
  exact value_of_notMem (hdigit 13 rfl) (hdigit 10 rfl) (hdigit 32 rfl)

lemma value_escapeHttp (url : Bytes) : Messages.Value httpMarks (url.flatMap escapeHttp) := by
  have hsafe : ∀ b : UInt8, b ∉ escapeSpecial → b ≠ 37 → isAlnum b = false →
      b ∉ url.flatMap escapeHttp := by
    intro b hspecial hpercent halnum hmem
    obtain ⟨c, -, hc⟩ := List.mem_flatMap.mp hmem
    rcases mem_escapeHttp hc with ⟨rfl, h⟩ | h | h
    · exact hspecial h
    · exact hpercent h
    · rw [halnum] at h
      cases h
  exact value_of_notMem (hsafe 13 (by decide) (by decide) rfl)
    (hsafe 10 (by decide) (by decide) rfl) (hsafe 32 (by decide) (by decide) rfl)

lemma plainField_lengthOf (n : ℕ) : PlainField (lengthOf n) :=
  plainField (by decide : str "Content-Length" ∈ _) (value_simpleItoa n)

lemma plainField_html : PlainField htmlTypeField :=
  plainField (by decide : str "Content-Type" ∈ _) ⟨⟨by decide, by decide⟩, by decide⟩

lemma plainField_location (url : Bytes) : PlainField (locationField url) :=
  plainField (by decide : str "Location" ∈ _) (value_escapeHttp url)

lemma plainField_contentRange (r : Request) : PlainField (contentRangeField r) := by
  have hblank : Messages.Value httpMarks (str "bytes ") := ⟨⟨by decide, by decide⟩, by decide⟩
  have hdash : Messages.Value httpMarks (str "-") := ⟨⟨by decide, by decide⟩, by decide⟩
  have hslash : Messages.Value httpMarks (str "/") := ⟨⟨by decide, by decide⟩, by decide⟩
  exact plainField (by decide : str "Content-Range" ∈ _)
    (value_append (value_append (value_append (value_append (value_append hblank
      (value_simpleItoa _)) hdash) (value_simpleItoa _)) hslash) (value_simpleItoa _))

section

variable {cfg : Config} {env : Env}

lemma PlainTexts.lastModified (h : PlainTexts cfg env) (r : Request) :
    PlainField (lastModifiedField env r) :=
  plainField (by decide : str "Last-Modified" ∈ _) (h.date r.lastModified)

lemma PlainTexts.contentType (h : PlainTexts cfg env) (r : Request) :
    PlainField (contentTypeField cfg r) := by
  refine plainField (by decide : str "Content-Type" ∈ _) (value_append (h.mime r.requestUri) ?_)
  have hempty : Messages.Value httpMarks ([] : Bytes) := ⟨⟨by decide, by decide⟩, by decide⟩
  rw [charsetText]
  cases hcharset : cfg.defaultCharset with
  | none => exact hempty
  | some charset =>
      dsimp only
      split_ifs
      · exact value_cons_append ⟨⟨by decide, by decide⟩, by decide⟩ (h.charset charset hcharset)
      · exact hempty

lemma PlainTexts.headFields (h : PlainTexts cfg env) (r : Request) :
    ∀ f ∈ headFields cfg env r, PlainField f := by
  have hdate : PlainField (str "Date", env.rfc822 0) := plainField (by decide) (h.date 0)
  have hserver : PlainField (str "Server", serverVersion) :=
    plainField (by decide) ⟨⟨by decide, by decide⟩, by decide⟩
  have haccept : PlainField (str "Accept-Ranges", str "bytes") :=
    plainField (by decide) ⟨⟨by decide, by decide⟩, by decide⟩
  have hkept : ∀ f ∈ kaFields cfg r, PlainField f := by
    have hmax : Messages.OneLine httpMarks
        (simpleItoa cfg.kaTimeout ++ str ", max=" ++ simpleItoa r.kacount) :=
      ((value_simpleItoa _).oneLine.append ⟨by decide, by decide⟩).append
        (value_simpleItoa _).oneLine
    have htimeout : Messages.Value httpMarks
        (str "timeout=" ++ simpleItoa cfg.kaTimeout ++ str ", max=" ++ simpleItoa r.kacount) := by
      rw [List.append_assoc, List.append_assoc, ← List.append_assoc (simpleItoa cfg.kaTimeout)]
      exact value_cons_append ⟨⟨by decide, by decide⟩, by decide⟩ hmax
    intro f hf
    rw [kaFields] at hf
    split_ifs at hf
    · rcases List.mem_cons.mp hf with rfl | hf
      · exact plainField (by decide) ⟨⟨by decide, by decide⟩, by decide⟩
      · rw [List.mem_singleton.mp hf]
        exact plainField (by decide) htimeout
    · rw [List.mem_singleton.mp hf]
      exact plainField (by decide) ⟨⟨by decide, by decide⟩, by decide⟩
  intro f hf
  rw [Yabwf.headFields] at hf
  split_ifs at hf
  · rcases List.mem_cons.mp hf with rfl | hf
    · exact hdate
    · rcases List.mem_cons.mp hf with rfl | hf
      · exact haccept
      · exact hkept f hf
  · rcases List.mem_cons.mp hf with rfl | hf
    · exact hdate
    · rcases List.mem_cons.mp hf with rfl | hf
      · exact hserver
      · rcases List.mem_cons.mp hf with rfl | hf
        · exact haccept
        · exact hkept f hf

lemma PlainTexts.fields (h : PlainTexts cfg env) (a : Answer) (r : Request) :
    ∀ f ∈ a.fields cfg env r, PlainField f := by
  have hmulti : PlainField
      (str "Content-Type", str "multipart/byteranges; boundary=THIS_STRING_SEPARATES") :=
    plainField (by decide) ⟨⟨by decide, by decide⟩, by decide⟩
  cases a with
  | requestOk =>
      simp [Answer.fields, plainField_lengthOf, h.lastModified, h.contentType]
  | noContent => simp [Answer.fields]
  | partialContent =>
      unfold Answer.fields
      split_ifs
      · simp [h.lastModified, hmulti]
      · simp [plainField_lengthOf, h.lastModified, h.contentType, plainField_contentRange]
  | notModified => simp [Answer.fields, h.contentType]
  | movedPerm url => simp [Answer.fields, plainField_html, plainField_location]
  | movedTemp url => simp [Answer.fields, plainField_html, plainField_location]
  | invalidRange => simp [Answer.fields, plainField_lengthOf, plainField_html]
  | serviceUnavailable => simp [Answer.fields, plainField_lengthOf, plainField_html]
  | badRequest | forbidden | notFound | serverError | notImplemented | badGateway =>
      simp [Answer.fields, plainField_html]

/-- The message of each response can be read. -/
lemma PlainTexts.wellFormed (h : PlainTexts cfg env) (a : Answer) (r : Request) (body : Bytes) :
    (a.message cfg env r body).WellFormed httpMarks where
  start := by
    have hver : Messages.OneLine httpMarks (httpVerString r.httpVersion) := by
      cases r.httpVersion <;> exact ⟨by decide, by decide⟩
    have hreason : Messages.OneLine httpMarks (str a.reason) := by
      cases a <;> simp only [Answer.reason] <;> exact ⟨by decide, by decide⟩
    have hblank : Messages.OneLine httpMarks (str " ") := ⟨by decide, by decide⟩
    refine ⟨(((hver.append hblank).append (value_simpleItoa a.code).oneLine).append hblank).append
      hreason, fun hnil => ?_⟩
    have hlength := congrArg List.length hnil
    simp [Answer.message, Answer.start, str] at hlength
  fields f hf := (List.mem_append.mp hf).elim (h.headFields _ f) (h.fields a r f)

/-- No two fields of a head have one name. -/
lemma nodup_message (a : Answer) (r : Request) (body : Bytes) :
    ((a.message cfg env r body).fields.map Prod.fst).Nodup := by
  have hhead : ((headFields cfg env (a.request r)).map Prod.fst).Sublist headNames := by
    rw [headFields, kaFields]
    split_ifs <;> simp [headNames]
  have hnames : (headNames ++ (a.fields cfg env r).map Prod.fst).Nodup := by
    cases a with
    | partialContent =>
        simp only [Answer.fields]
        split_ifs
        · exact (by decide : (headNames ++ [str "Last-Modified", str "Content-Type"]).Nodup)
        · exact (by decide : (headNames ++ [str "Last-Modified", str "Content-Length",
            str "Content-Type", str "Content-Range"]).Nodup)
    | requestOk =>
        exact (by decide : (headNames ++ [str "Content-Length", str "Last-Modified",
          str "Content-Type"]).Nodup)
    | noContent => exact (by decide : (headNames ++ []).Nodup)
    | movedPerm | movedTemp =>
        exact (by decide : (headNames ++ [str "Content-Type", str "Location"]).Nodup)
    | invalidRange | serviceUnavailable =>
        exact (by decide : (headNames ++ [str "Content-Length", str "Content-Type"]).Nodup)
    | notModified | badRequest | forbidden | notFound | serverError | notImplemented | badGateway =>
        exact (by decide : (headNames ++ [str "Content-Type"]).Nodup)
  rw [Answer.message, List.map_append]
  exact hnames.sublist (hhead.append_right _)

end

/-- A request whose redirection is sent to a URL with a line end in it. -/
def movedConn : Conn := { req := { fd := 7 } }

/-- A clock that stands. -/
def clockEnv : Env := { rfc822 := fun _ => str "Thu, 01 Jan 1970 00:00:00 GMT" }

end Yabwf
