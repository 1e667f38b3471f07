import Yabwf.Util

/-!
`buffer.c`: the output buffer of a request.

* `reqWrite`, `reqWriteEscapeHttp`, `reqWriteEscapeHtml`: appending to the buffer.
* `reqFlush`: offering the buffer to the client socket.
* `escapeString`: the escaping of file names in directory listings.

The callers of the first three ignore the return value, so it is left out.
-/

namespace Yabwf

open Memory

/-- Appending bytes at `buffer_end`. -/
def Conn.append (bs : Bytes) (c : Conn) : Conn :=
  (c.upd fun r => { r with
    buffer := r.buffer.store r.bufferEnd bs
    bufferEnd := r.bufferEnd + bs.length }).emit (.buffered bs)

/-- `req->status = …`. -/
def Conn.setStatus (s : ReqStatus) (c : Conn) : Conn := c.upd fun r => { r with status := s }

/-- `req->status = DEAD`. -/
def Conn.die (c : Conn) : Conn := (c.setStatus .dead).emit .died

/-- `req_write`. -/
def reqWrite (msg : Bytes) (c : Conn) : Conn :=
  if msg = [] ∨ ReqStatus.done.code < c.req.status.code then c
  else if bufferSize < c.req.bufferEnd + msg.length then c.die
  else c.append msg

/-- `reset_output_buffer`. -/
def resetOutputBuffer (c : Conn) : Conn :=
  (c.upd fun r => { r with bufferEnd := 0 }).emit .dropped

/-- The loop of the escaping writers: what it writes into the room that is left, and the
input that it does not get to. -/
def escapeLoop (guardBand : ℕ) (escape : UInt8 → Bytes) : ℕ → Bytes → Bytes × Bytes
  | _, [] => ([], [])
  | left, b :: msg =>
      if left < guardBand then ([], b :: msg)
      else
        let r := escapeLoop guardBand escape (left - (escape b).length) msg
        (escape b ++ r.1, r.2)

/-- The escaping writers, by guard band and code. Neither looks at the status. -/
def reqWriteEscape (guardBand : ℕ) (escape : UInt8 → Bytes) (msg : Bytes) (c : Conn) : Conn :=
  let r := escapeLoop guardBand escape (bufferSize - c.req.bufferEnd) msg
  let c := c.append r.1
  if r.2 = [] ∨ c.req.status = .dead then c else c.die

/-- The characters that `build_needs_escape` lets through. -/
def escapeSpecial : Bytes :=
  str "ABCDEFGHIJKLMNOPQRSTUVWXYZabcdefghijklmnopqrstuvwxyz0123456789-_.!~*'():@&=+$,/?"

/-- `INT_TO_HEX`. -/
def intToHex (x : UInt8) : UInt8 := if 9 < x then (97 - 10) + x else 48 + x

/-- One character of a URL in a header. -/
def escapeHttp (b : UInt8) : Bytes :=
  if b ∈ escapeSpecial then [b] else [37, intToHex (b / 16), intToHex (b % 16)]

lemma isAlnum_intToHex {n : UInt8} (h : n < 16) : isAlnum (intToHex n) = true := by
  have hall : ∀ n : Fin 16, isAlnum (intToHex (UInt8.ofNat n)) = true := by decide
  have hn : n.toNat < 16 := h
  simpa using hall ⟨n.toNat, hn⟩

lemma nibbles_lt (b : UInt8) : b / 16 < 16 ∧ b % 16 < 16 := by
  have hb := b.toNat_lt
  rw [UInt8.lt_iff_toNat_lt, UInt8.lt_iff_toNat_lt]
  simp
  omega

/-- An escaped character is itself, or a percent sign and two digits. -/
lemma mem_escapeHttp {b c : UInt8} (h : c ∈ escapeHttp b) :
    (c = b ∧ b ∈ escapeSpecial) ∨ c = 37 ∨ isAlnum c = true := by
  rw [escapeHttp] at h
  split_ifs at h with hspecial
  · exact Or.inl ⟨List.mem_singleton.mp h, hspecial⟩
  · simp only [List.mem_cons, List.not_mem_nil, or_false] at h
    rcases h with rfl | rfl | rfl
    · exact Or.inr (Or.inl rfl)
    · exact Or.inr (Or.inr (isAlnum_intToHex (nibbles_lt b).1))
    · exact Or.inr (Or.inr (isAlnum_intToHex (nibbles_lt b).2))

/-- `escape_string`, into a buffer of its own. -/
def escapeString (inp : Bytes) : Bytes := inp.flatMap escapeHttp

/-- One character of an HTML body. -/
def escapeHtml (b : UInt8) : Bytes :=
  if b = 62 then str "&gt;"
  else if b = 60 then str "&lt;"
  else if b = 38 then str "&amp;"
  else if b = 34 then str "&quot;"
  else [b]

/-- A string that is handed on: one that lies elsewhere, or one at an offset of the
buffer. -/
inductive Text
  | elsewhere (s : Bytes)
  | inBuffer (off : ℕ)

/-- The loop of the escaping writers on a string in the buffer that they write to: what it
writes, and whether it gets to the end of the string, which is read byte by byte between the
stores. -/
def escapeInPlace (guardBand : ℕ) (escape : UInt8 → Bytes) :
    ℕ → Mem → ℕ → ℕ → ℕ → Bytes × Bool
  | 0, _, _, _, _ => ([], false)
  | fuel + 1, m, inp, dest, left =>
      if m inp = 0 then ([], true)
      else if left < guardBand then ([], false)
      else
        let r := escapeInPlace guardBand escape fuel (m.store dest (escape (m inp))) (inp + 1)
          (dest + (escape (m inp)).length) (left - (escape (m inp)).length)
        (escape (m inp) ++ r.1, r.2)

/-- The escaping writers on either kind of string; every round takes some of the room. -/
def reqWriteEscapeText (guardBand : ℕ) (escape : UInt8 → Bytes) (text : Text) (c : Conn) : Conn :=
  match text with
  | .elsewhere msg => reqWriteEscape guardBand escape msg c
  | .inBuffer off =>
      let left := bufferSize - c.req.bufferEnd
      let r := escapeInPlace guardBand escape (left + 1) c.req.buffer off c.req.bufferEnd left
      let c := c.append r.1
      if r.2 = true ∨ c.req.status = .dead then c else c.die

/-- `req_write_escape_http`. -/
def reqWriteEscapeHttp (msg : Text) (c : Conn) : Conn := reqWriteEscapeText 3 escapeHttp msg c

/-- `req_write_escape_html`. -/
def reqWriteEscapeHtml (msg : Text) (c : Conn) : Conn := reqWriteEscapeText 6 escapeHtml msg c

/-- The bytes of the buffer that have not been sent. -/
def Request.pending (r : Request) : Bytes :=
  r.buffer.slice r.bufferStart (r.bufferEnd - r.bufferStart)

/-- `req_flush` behind its `write`: an empty buffer starts over. -/
def flushDone (c : Conn) : ℤ × Conn :=
  let c :=
    if c.req.bufferStart = c.req.bufferEnd then
      c.upd fun r => { r with bufferStart := 0, bufferEnd := 0 }
    else c
  (c.req.bufferEnd, c)

/-- `req_flush`: `-2` for an error, `-1` for a socket that is full, and otherwise how
much is stored. The socket takes no more than it is offered. -/
def reqFlush (c : Conn) : ℤ × Conn :=
  let bytesToWrite := (c.req.bufferEnd + 2 ^ 32 - c.req.bufferStart) % 2 ^ 32
  if ReqStatus.done.code < c.req.status.code then (-2, c)
  else if bytesToWrite = 0 then flushDone c
  else
    match c.pop with
    | (.again, c) => (-1, c)
    | (.intr, c) | (.error, c) =>
        (-2, ((c.upd fun r => { r with bufferStart := 0, bufferEnd := 0 }).emit .dropped).die)
    | (.accept n, c) =>
        let n := min n bytesToWrite
        flushDone ((c.upd fun r => { r with bufferStart := r.bufferStart + n }).emit
          (.flushed (c.req.buffer.slice c.req.bufferStart n)))

end Yabwf
