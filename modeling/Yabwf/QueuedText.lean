import Yabwf.Lengths
import Yabwf.Output

/-!
The text that the functions of `buffer.c` and `response.c` queue, as long as it fits.

* `queuedText`, `Said`: what is queued between two states, by a request that is not given up.
* `Wrote`: a function queues a text and changes nothing else; texts are joined like lists.
* `GaveUp`: a function gives the request up; what follows changes nothing about it.
* `statusText`, `Wrote.statusLine`: the status line and the headers of every response.
* `reqFlush_said`: the flush at the end of a page queues nothing.
-/

namespace Yabwf

open Memory

/-! ### Texts and events -/

/-- The text of an event. -/
def Event.text : Event → Bytes
  | .buffered bs => bs
  | _ => []

/-- The text that is queued between two states of a connection. -/
def queuedText (c c' : Conn) : Bytes := (writes c c').flatten

/-- The events between two states of a connection. -/
def newEvents (c c' : Conn) : List Event := c'.trace.drop c.trace.length

lemma newEvents_eq {c c' : Conn} {es : List Event} (h : c'.trace = c.trace ++ es) :
    newEvents c c' = es := by
  rw [newEvents, h, List.drop_left]

lemma queuedText_eq {c c' : Conn} {es : List Event} (h : c'.trace = c.trace ++ es) :
    queuedText c c' = es.flatMap Event.text := by
  rw [queuedText, writes, h, List.drop_left]
  clear h
  induction es with
  | nil => rfl
  | cons e es ih => cases e <;> simp [Event.text, ih]

/-- A text is queued, and the request is not given up unless its socket fails, which drops
the buffer first. -/
structure Said (bs : Bytes) (c c' : Conn) : Prop where
  text : queuedText c c' = bs
  kept : Event.died ∈ newEvents c c' → Event.dropped ∈ newEvents c c'

/-- There is room for `n` bytes in the buffer of a request that is served. -/
structure HasRoom (n : ℕ) (c : Conn) : Prop where
  live : c.req.status.code ≤ ReqStatus.done.code
  fits : c.req.bufferEnd + n ≤ bufferSize

/-- A function queues the text `bs`, and changes nothing else. -/
structure Wrote (bs : Bytes) (c c' : Conn) : Prop where
  req : c'.req = { c.req with
    buffer := c.req.buffer.store c.req.bufferEnd bs
    bufferEnd := c.req.bufferEnd + bs.length }
  events : ∃ es, c'.trace = c.trace ++ es ∧ es.flatMap Event.text = bs ∧
    Event.died ∉ es ∧ Event.dropped ∉ es

/-- A function gives the request up, and leaves in the buffer what is there. -/
structure GaveUp (c c' : Conn) : Prop where
  dead : c'.req.status = .dead
  events : ∃ es, c'.trace = c.trace ++ es ∧ Event.died ∈ es ∧ Event.dropped ∉ es

/-! ### Joining texts -/

namespace Wrote

variable {bs bs' : Bytes} {c c' c'' : Conn} {n : ℕ}

lemma refl (c : Conn) : Wrote [] c c := by
  refine ⟨?_, [], by simp⟩
  rw [Mem.store_nil]
  rfl

lemma trans (h : Wrote bs c c') (h' : Wrote bs' c' c'') : Wrote (bs ++ bs') c c'' := by
  obtain ⟨es, htrace, htext, hdied, hdropped⟩ := h.events
  obtain ⟨es', htrace', htext', hdied', hdropped'⟩ := h'.events
  refine ⟨?_, es ++ es', ?_, ?_, ?_, ?_⟩
  · rw [h'.req, h.req]
    dsimp only
    rw [Mem.store_append, List.length_append, Nat.add_assoc]
  · rw [htrace', htrace, List.append_assoc]
  · rw [List.flatMap_append, htext, htext']
  · simp [hdied, hdied']
  · simp [hdropped, hdropped']

lemma bufferEnd (h : Wrote bs c c') : c'.req.bufferEnd = c.req.bufferEnd + bs.length := by
  rw [h.req]

lemma status (h : Wrote bs c c') : c'.req.status = c.req.status := by
  rw [h.req]

lemma hasRoom (h : Wrote bs c c') (hroom : HasRoom n c) (hn : bs.length ≤ n) :
    HasRoom (n - bs.length) c' := by
  have hfits := hroom.fits
  refine ⟨?_, ?_⟩
  · rw [h.status]
    exact hroom.live
  · rw [h.bufferEnd]
    omega

/-- Nothing is stored behind the text. -/
lemma buffer (h : Wrote bs c c') {i : ℕ} (hi : c.req.bufferEnd + bs.length ≤ i) :
    c'.req.buffer i = c.req.buffer i := by
  rw [h.req]
  exact Mem.store_of_le c.req.buffer bs hi

/-- A string behind the text stays as it is. -/
lemma hasStr (h : Wrote bs c c') {off : ℕ} {s : Bytes} (hstr : c.req.buffer.HasStr off s)
    (hoff : c.req.bufferEnd + bs.length ≤ off) : c'.req.buffer.HasStr off s :=
  hstr.congr fun _ hi => h.buffer (hoff.trans hi)

lemma gaveUp (h : Wrote bs c c') (h' : GaveUp c' c'') : GaveUp c c'' := by
  obtain ⟨es, htrace, -, -, hdropped⟩ := h.events
  obtain ⟨es', htrace', hdied', hdropped'⟩ := h'.events
  refine ⟨h'.dead, es ++ es', ?_, ?_, ?_⟩
  · rw [htrace', htrace, List.append_assoc]
  · exact List.mem_append_right _ hdied'
  · simp [hdropped, hdropped']

end Wrote

/-! ### `buffer.c` -/

section

variable {bs msg : Bytes} {c c' : Conn} {n : ℕ}

lemma append_wrote (bs : Bytes) (c : Conn) : Wrote bs c (c.append bs) :=
  ⟨rfl, [.buffered bs], rfl, by simp [Event.text], by simp, by simp⟩

lemma die_gaveUp (c : Conn) : GaveUp c c.die :=
  ⟨rfl, [.died], rfl, by simp, by simp⟩

/-- A text that fits is queued. -/
lemma reqWrite_wrote (hroom : HasRoom msg.length c) : Wrote msg c (reqWrite msg c) := by
  have hlive := hroom.live
  have hfits := hroom.fits
  rw [reqWrite]
  split_ifs with hskip hfull
  · rcases hskip with rfl | hdone
    · exact Wrote.refl c
    · omega
  · omega
  · exact append_wrote msg c

/-- A text is queued, or the request is given up. -/
lemma reqWrite_cases (hlive : c.req.status.code ≤ ReqStatus.done.code) (msg : Bytes) :
    Wrote msg c (reqWrite msg c) ∨ GaveUp c (reqWrite msg c) := by
  by_cases hfits : c.req.bufferEnd + msg.length ≤ bufferSize
  · exact Or.inl (reqWrite_wrote ⟨hlive, hfits⟩)
  rw [reqWrite]
  split_ifs with hskip hfull
  · rcases hskip with rfl | hdone
    · exact Or.inl (Wrote.refl c)
    · omega
  · exact Or.inr (die_gaveUp c)
  · omega

lemma note_wrote {e : Event} (he : e = .headed ∨ e = .promised) (c : Conn) :
    Wrote [] c (c.note e) := by
  rw [Conn.note]
  split_ifs
  · exact Wrote.refl c
  · refine ⟨?_, [e], rfl, ?_, ?_, ?_⟩
    · rw [Mem.store_nil]
      rfl
    all_goals rcases he with rfl | rfl <;> simp [Event.text]

end

namespace Wrote

variable {bs msg : Bytes} {c c' : Conn} {n : ℕ}

/-- One more text. -/
lemma reqWrite (h : Wrote bs c c') (hroom : HasRoom n c) (msg : Bytes)
    (hn : (bs ++ msg).length ≤ n) : Wrote (bs ++ msg) c (reqWrite msg c') := by
  rw [List.length_append] at hn
  have hroom' := h.hasRoom hroom (by omega)
  have hfits := hroom'.fits
  exact h.trans (reqWrite_wrote ⟨hroom'.live, by omega⟩)

lemma note (h : Wrote bs c c') {e : Event} (he : e = .headed ∨ e = .promised) :
    Wrote bs c (c'.note e) := by
  rw [← List.append_nil bs]
  exact h.trans (note_wrote he c')

/-- Texts one after the other. -/
lemma reqWrites (h : Wrote bs c c') (hroom : HasRoom n c) (msgs : List Bytes)
    (hn : (bs ++ msgs.flatten).length ≤ n) :
    Wrote (bs ++ msgs.flatten) c (reqWrites msgs c') := by
  induction msgs generalizing bs c' with
  | nil =>
      rw [List.flatten_nil, List.append_nil]
      exact h
  | cons msg msgs ih =>
      rw [List.flatten_cons, ← List.append_assoc] at hn ⊢
      refine ih (h.reqWrite hroom msg ?_) hn
      rw [List.length_append] at hn
      omega

end Wrote

/-! ### A request that has been given up -/

namespace GaveUp

variable {c c' : Conn}

/-- What happens to a request that has been given up. -/
lemma step {c'' : Conn} (h : GaveUp c c') (hdead : c''.req.status = .dead)
    (hevents : ∃ es, c''.trace = c'.trace ++ es ∧ Event.dropped ∉ es) : GaveUp c c'' := by
  obtain ⟨es, htrace, hdied, hdropped⟩ := h.events
  obtain ⟨es', htrace', hdropped'⟩ := hevents
  refine ⟨hdead, es ++ es', ?_, ?_, ?_⟩
  · rw [htrace', htrace, List.append_assoc]
  · exact List.mem_append_left _ hdied
  · simp [hdropped, hdropped']

lemma done_lt (h : GaveUp c c') : ReqStatus.done.code < c'.req.status.code := by
  rw [h.dead]
  decide

lemma reqWrite (h : GaveUp c c') (msg : Bytes) : GaveUp c (reqWrite msg c') := by
  rw [Yabwf.reqWrite, if_pos (Or.inr h.done_lt)]
  exact h

lemma append (h : GaveUp c c') (bs : Bytes) : GaveUp c (c'.append bs) :=
  h.step h.dead ⟨[.buffered bs], rfl, by simp⟩

/-- The escaping writers go on, but do not bring it back. -/
lemma reqWriteEscapeText (h : GaveUp c c') (guardBand : ℕ) (escape : UInt8 → Bytes)
    (off : ℕ) : GaveUp c (reqWriteEscapeText guardBand escape (.inBuffer off) c') := by
  rw [Yabwf.reqWriteEscapeText, if_pos (Or.inr (h.append _).dead)]
  exact h.append _

lemma reqFlush (h : GaveUp c c') : GaveUp c (reqFlush c').2 := by
  rw [Yabwf.reqFlush, if_pos h.done_lt]
  exact h

lemma not_said {bs : Bytes} (h : GaveUp c c') : ¬Said bs c c' := by
  obtain ⟨es, htrace, hdied, hdropped⟩ := h.events
  intro hsaid
  rw [← newEvents_eq htrace] at hdied hdropped
  exact hdropped (hsaid.kept hdied)

end GaveUp

/-! ### The status line -/

/-- `print_ka_phrase`, as a text. -/
def kaText (cfg : Config) (r : Request) : Bytes :=
  if 0 < r.kacount ∧ r.keepalive = .active ∧ r.responseStatus < 500 then
    str "Connection: Keep-Alive\r\nKeep-Alive: timeout=" ++ simpleItoa cfg.kaTimeout
      ++ str ", max=" ++ simpleItoa r.kacount ++ crlf
  else str "Connection: close\r\n"

/-- The status line and the headers that all responses have, as a text. -/
def statusText (cfg : Config) (env : Env) (line : String) (r : Request) : Bytes :=
  httpVerString r.httpVersion ++ str line ++ (str "Date: " ++ env.rfc822 0 ++ crlf)
    ++ (if cfg.concealServerIdentity then [] else str "Server: " ++ serverVersion ++ crlf)
    ++ str "Accept-Ranges: bytes\r\n" ++ kaText cfg r

/-- A date has 29 characters. -/
lemma length_statusText_le (cfg : Config) {env : Env} (hdate : (env.rfc822 0).length = 29)
    (line : String) (r : Request) :
    (statusText cfg env line r).length ≤ (str line).length + 200 := by
  have hver : (httpVerString r.httpVersion).length = 8 := by
    cases r.httpVersion <;> rfl
  have hserver : (str "Server: " ++ serverVersion ++ crlf).length = 21 := by decide
  have hka : (kaText cfg r).length ≤ 80 := by
    have htimeout := length_simpleItoa_le cfg.kaTimeout
    have hcount := length_simpleItoa_le r.kacount
    rw [kaText]
    split_ifs
    · simp only [List.length_append]
      have h₁ : (str "Connection: Keep-Alive\r\nKeep-Alive: timeout=").length = 44 := by decide
      have h₂ : (str ", max=").length = 6 := by decide
      have h₃ : crlf.length = 2 := by decide
      omega
    · decide
  have h₁ : (str "Date: ").length = 6 := by decide
  have h₂ : (str "Accept-Ranges: bytes\r\n").length = 22 := by decide
  have h₃ : crlf.length = 2 := by decide
  rw [statusText]
  split_ifs
  · simp only [List.length_append, List.length_nil]
    omega
  · rw [List.length_append, List.length_append, List.length_append, hserver]
    simp only [List.length_append]
    omega

section

variable {bs : Bytes} {c c' : Conn} {n : ℕ}

lemma Wrote.printKaPhrase (h : Wrote bs c c') (cfg : Config) (hroom : HasRoom n c)
    (hn : (bs ++ kaText cfg c.req).length ≤ n) :
    Wrote (bs ++ kaText cfg c.req) c (printKaPhrase cfg c') := by
  have hsame : kaText cfg c'.req = kaText cfg c.req := by
    rw [kaText, kaText, h.req]
  rw [← hsame] at hn ⊢
  rw [Yabwf.printKaPhrase]
  rw [kaText] at hn ⊢
  split_ifs at hn ⊢ with hactive
  · have hlen := hn
    simp only [List.length_append] at hlen
    have h₁ := h.reqWrite hroom (str "Connection: Keep-Alive\r\nKeep-Alive: timeout=") (by
      rw [List.length_append]
      omega)
    have h₂ := (h₁.note (Or.inr rfl)).reqWrites hroom
      [simpleItoa cfg.kaTimeout, str ", max=", simpleItoa c'.req.kacount, crlf] (by
        simpa only [List.flatten_cons, List.flatten_nil, List.append_nil, List.append_assoc]
          using hn)
    simpa only [Yabwf.reqWrites, List.foldl_cons, List.foldl_nil, List.flatten_cons,
      List.flatten_nil, List.append_nil, List.append_assoc] using h₂
  · exact h.reqWrite hroom _ hn

/-- The status line and the headers. -/
lemma Wrote.statusLine (h : Wrote bs c c') (cfg : Config) (env : Env) (hroom : HasRoom n c)
    (line : String)
    (hn : (bs ++ statusText cfg env line c.req).length ≤ n) :
    Wrote (bs ++ statusText cfg env line c.req) c (statusLine cfg env line c') := by
  have hver : c'.req.httpVersion = c.req.httpVersion := by rw [h.req]
  have hlen := hn
  rw [statusText] at hn hlen ⊢
  simp only [List.length_append] at hlen
  rw [Yabwf.statusLine, Yabwf.printHttpHeaders, hver]
  have h₁ := (h.reqWrites hroom [httpVerString c.req.httpVersion, str line] (by
    simp only [List.flatten_cons, List.flatten_nil, List.length_append, List.length_nil]
    omega)).note (Or.inl rfl)
  have h₂ := h₁.reqWrite hroom (str "Date: " ++ env.rfc822 0 ++ crlf) (by
    simp only [List.flatten_cons, List.flatten_nil, List.length_append, List.length_nil]
    omega)
  simp only [Yabwf.reqWrites, List.foldl_cons, List.foldl_nil, List.flatten_cons,
    List.flatten_nil, List.append_nil] at h₂
  split_ifs at hn hlen ⊢ with hconceal
  · have h₃ := h₂.reqWrite hroom (str "Accept-Ranges: bytes\r\n") (by
      simp only [List.length_append]
      omega)
    have h₄ := h₃.printKaPhrase cfg hroom (by
      simp only [List.length_append]
      omega)
    simpa only [List.append_assoc, List.append_nil] using h₄
  · simp only [List.length_append] at hlen
    have h₃ := h₂.reqWrites hroom
      [str "Server: " ++ serverVersion ++ crlf, str "Accept-Ranges: bytes\r\n"] (by
        simp only [List.flatten_cons, List.flatten_nil, List.length_append, List.length_nil]
        omega)
    have h₄ := h₃.printKaPhrase cfg hroom (by
      simp only [List.flatten_cons, List.flatten_nil, List.length_append, List.length_nil]
      omega)
    simpa only [Yabwf.reqWrites, List.foldl_cons, List.foldl_nil, List.flatten_cons,
      List.flatten_nil, List.append_assoc, List.append_nil] using h₄

end

/-! ### The flush at the end -/

/-- The flush queues nothing, and gives the request up only when the socket fails. -/
lemma reqFlush_events {c : Conn} (hlive : c.req.status.code ≤ ReqStatus.done.code) :
    ∃ es, (reqFlush c).2.trace = c.trace ++ es ∧ es.flatMap Event.text = [] ∧
      (Event.died ∈ es → Event.dropped ∈ es) := by
  have hdone (d : Conn) : (flushDone d).2.trace = d.trace := by
    rw [flushDone]
    dsimp only
    split_ifs <;> rfl
  rw [reqFlush]
  simp only
  split_ifs with hfull hzero
  · omega
  · exact ⟨[], by rw [hdone, List.append_nil], rfl, by simp⟩
  · obtain ⟨t, ht⟩ := pop_eq c
    rcases hpop : c.pop with ⟨answer, d⟩
    rw [hpop] at ht
    simp only at ht
    subst ht
    cases answer with
    | again => exact ⟨[], by simp, rfl, by simp⟩
    | intr | error =>
        refine ⟨[.dropped, .died], ?_, rfl, by simp⟩
        simp [Conn.die, Conn.setStatus]
    | accept n => exact ⟨[.flushed _], hdone _, rfl, by simp⟩

/-- A page that is queued and flushed has been said. -/
lemma Wrote.said {bs : Bytes} {c c' : Conn} (h : Wrote bs c c')
    (hlive : c.req.status.code ≤ ReqStatus.done.code) : Said bs c (reqFlush c').2 := by
  obtain ⟨es, htrace, htext, hdied, -⟩ := h.events
  obtain ⟨es', htrace', htext', hkept⟩ := reqFlush_events (c := c') (by rwa [h.status])
  have hall : (reqFlush c').2.trace = c.trace ++ (es ++ es') := by
    rw [htrace', htrace, List.append_assoc]
  refine ⟨?_, fun hmem => ?_⟩
  · rw [queuedText_eq hall, List.flatMap_append, htext, htext', List.append_nil]
  · rw [newEvents_eq hall] at hmem ⊢
    exact List.mem_append_right _ (hkept ((List.mem_append.mp hmem).resolve_left hdied))

end Yabwf
