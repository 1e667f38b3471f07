import Yabwf.Lib.CString
import Yabwf.Body
import Yabwf.PipeBuffer

/-!
The output of a script, or of a listing, on its way to the client.

* `Relay`, `relay`: the visits behind `init_cgi`, with what `read_from_pipe` has read and
  whether it has found the end.
* `Relays`: what the handlers put on the socket, followed by the pending bytes, grows by what
  is read.
* `RelayState`: where the pointers and the status stand between two visits.
* `cgi_relay_fifo`: hence nothing is lost or reordered, and the request ends without an error
  only behind the end of the output.
-/

namespace Yabwf

open Memory

/-- What a handler puts on the socket itself. -/
def Event.relayed : Event → Bytes
  | .wrote _ _ bs => bs
  | _ => []

/-- What the handlers have put on the socket. -/
def relayed (t : List Event) : Bytes := t.flatMap Event.relayed

@[simp] lemma relayed_append (t t' : List Event) : relayed (t ++ t') = relayed t ++ relayed t' :=
  List.flatMap_append

@[simp] lemma relayed_singleton (e : Event) : relayed [e] = e.relayed := by
  simp [relayed]

lemma relayed_of_output {t : List Event} (h : ∀ e ∈ t, e.isOutput = true) : relayed t = [] := by
  rw [relayed, List.flatMap_eq_nil_iff]
  intro e he
  cases e <;> first | rfl | exact absurd (h _ he) (by simp [Event.isOutput])

/-- The room that `read_from_pipe` offers to the pipe. -/
def Request.pipeRoom (r : Request) : ℕ := bufferSize + 1 - r.headerEnd.off

/-- What `read_from_pipe` reads. -/
def Request.pipeInput (env : Env) (r : Request) : Bytes :=
  match env.pipeRead with
  | .data bs => bs.take r.pipeRoom
  | _ => []

/-- `read_from_pipe` finds the end of the output. -/
def Request.atPipeEnd (env : Env) (r : Request) : Bool :=
  match env.pipeRead with
  | .data [] => decide (r.pipeRoom ≠ 0)
  | _ => false

/-- A request with a child: what `read_from_pipe` has read, whether it has found the end of
the output, and whether a visit has ended the request. -/
structure Relay where
  conn : Conn
  read : Bytes := []
  eof : Bool := false
  ended : Bool := false

/-- A visit to such a request, up to `free_request`. -/
def relay (cfg : Config) (d : Relay) (env : Env) : Relay :=
  if d.ended then d
  else
    let c : Conn := { d.conn with tape := env.sock }
    let r := (flushFirst c).2.req
    let reads := decide ((flushFirst c).1 = 1) && r.status == .pipeRead
    { conn := (processRequest cfg env c).2
      read := if reads then d.read ++ r.pipeInput env else d.read
      eof := d.eof || reads && r.atPipeEnd env
      ended := decide ((processRequest cfg env c).1 = 0) }

/-! ### What is written and what is pending -/

/-- What the handlers put on the socket, followed by the pending bytes, grows by `input`. -/
def Relays (c : Conn) (input : Bytes) (c' : Conn) : Prop :=
  ∃ out, relayed c'.trace = relayed c.trace ++ out ∧
    out ++ c'.req.unwritten = c.req.unwritten ++ input

namespace Relays

variable {c c' c'' : Conn} {input input' : Bytes}

/-- Nothing is written, and nothing is read. -/
lemma of_same (htrace : relayed c'.trace = relayed c.trace)
    (hpend : c'.req.unwritten = c.req.unwritten) : Relays c [] c' :=
  ⟨[], by rw [htrace, List.append_nil], by rw [hpend, List.nil_append, List.append_nil]⟩

lemma trans (h : Relays c input c') (h' : Relays c' input' c'') :
    Relays c (input ++ input') c'' := by
  obtain ⟨out, htrace, hpend⟩ := h
  obtain ⟨out', htrace', hpend'⟩ := h'
  refine ⟨out ++ out', ?_, ?_⟩
  · rw [htrace', htrace, List.append_assoc]
  · rw [List.append_assoc, hpend', ← List.append_assoc, hpend, List.append_assoc]

end Relays

lemma die_relays (c : Conn) : Relays c [] c.die :=
  Relays.of_same (by simp [Conn.die, Conn.setStatus, Event.relayed]) rfl

/-- Where a request stands whose output is relayed; `eof` says whether the end has been
found. -/
structure RelayState (eof : Bool) (r : Request) : Prop where
  region : r.headerLine.region = .buffer
  le : r.headerLine.off ≤ r.headerEnd.off
  room : r.headerEnd.off ≤ bufferSize + 1
  parsed : r.cgiStatus ≠ .parse
  /-- A buffer that is full has something to write. -/
  full : r.headerEnd.off = bufferSize + 1 → r.headerLine.off < r.headerEnd.off
  /-- `write_from_pipe` is not called with nothing to write before the end. -/
  phase : r.status = .pipeRead ∨ (r.status = .pipeWrite ∧
    (r.cgiStatus = .done → eof = false → r.headerLine.off < r.headerEnd.off))

/-- The bytes behind a pointer into the buffer. -/
lemma unwritten_eq {r : Request} (h : r.headerLine.region = .buffer) :
    r.unwritten = r.buffer.slice r.headerLine.off (r.headerEnd.off - r.headerLine.off) := by
  rw [Request.unwritten, Request.bytesAt, h]

section

variable {eof : Bool} {c : Conn}

lemma RelayState.of_cursors {r : Request} (h : RelayState eof r) (s e : ℕ) :
    RelayState eof { r with bufferStart := s, bufferEnd := e } :=
  ⟨h.region, h.le, h.room, h.parsed, h.full, h.phase⟩

/-- The pointers start over. -/
lemma RelayState.rewind {d : Conn} (hparsed : d.req.cgiStatus ≠ .parse)
    (hstatus : d.req.status = .pipeRead) : RelayState eof d.rewind.req :=
  ⟨rfl, le_rfl, Nat.zero_le _, hparsed, fun h => (nomatch h), Or.inl hstatus⟩

/-- `write_from_pipe` writes the front of the pending bytes. -/
lemma pipedOut_relays (h : c.req.headerLine.region = .buffer) {n : ℕ} (t : List WriteResult)
    (hn : n ≤ c.req.headerEnd.off - c.req.headerLine.off) :
    Relays c [] ((c.setTape t).pipedOut n) := by
  refine ⟨c.req.buffer.slice c.req.headerLine.off n, ?_, ?_⟩
  · simp [Conn.pipedOut, Conn.setTape, Event.relayed]
  · have hleft : ((c.setTape t).pipedOut n).req.unwritten
        = c.req.buffer.slice (c.req.headerLine.off + n)
          (c.req.headerEnd.off - c.req.headerLine.off - n) := by
      rw [unwritten_eq (by exact h), Nat.sub_sub]
      rfl
    rw [hleft, ← Mem.slice_append, Nat.add_sub_cancel' hn, unwritten_eq h, List.append_nil]

/-- `write_from_pipe` goes on to `read_from_pipe` when nothing is left to write. -/
lemma rewind_relays {d : Conn} (h : d.req.headerEnd.off - d.req.headerLine.off = 0) :
    Relays d [] ((d.setStatus .pipeRead).rewind) := by
  refine Relays.of_same rfl ?_
  rw [List.eq_nil_of_length_eq_zero (l := d.req.unwritten) (by rw [length_unwritten, h])]
  rfl

/-- `write_from_pipe` writes from the front, keeps the state, and ends the request, unless
the socket is broken, only when there is nothing to write behind the header. -/
lemma writeFromPipe_relays (h : RelayState eof c.req) :
    Relays c [] (writeFromPipe c).2 ∧
      ((writeFromPipe c).1 ≠ 0 → RelayState eof (writeFromPipe c).2.req) ∧
      ((writeFromPipe c).1 = 0 → (writeFromPipe c).2.req.status = .dead ∨
        (c.req.headerEnd.off ≤ c.req.headerLine.off ∧ c.req.cgiStatus = .done ∧
          (writeFromPipe c).2 = c)) := by
  rcases writeFromPipe_cases c with
    ⟨hzero, ⟨hdone, heq⟩ | ⟨-, heq⟩⟩ | ⟨t, -, heq⟩ | ⟨t, heq⟩ | ⟨t, heq⟩ |
    ⟨t, n, hn, ⟨hall, heq⟩ | ⟨hpart, heq⟩⟩
  · rw [heq]
    exact ⟨Relays.of_same rfl rfl, fun h => absurd rfl h, fun _ => Or.inr ⟨by omega, hdone, rfl⟩⟩
  · rw [heq]
    exact ⟨rewind_relays hzero, fun _ => RelayState.rewind h.parsed rfl,
      fun h => absurd h one_ne_zero⟩
  · rw [heq]
    exact ⟨Relays.of_same rfl rfl, fun _ => h, fun h => absurd h (by simp)⟩
  · rw [heq]
    exact ⟨Relays.of_same rfl rfl, fun _ => h, fun h => absurd h one_ne_zero⟩
  · rw [heq]
    exact ⟨die_relays _, fun h => absurd rfl h, fun _ => Or.inl rfl⟩
  · rw [heq]
    have hnone : ((c.setTape t).pipedOut n).req.headerEnd.off
        - ((c.setTape t).pipedOut n).req.headerLine.off = 0 := by
      change c.req.headerEnd.off - (c.req.headerLine.off + n) = 0
      omega
    exact ⟨(pipedOut_relays h.region t hn).trans (rewind_relays hnone),
      fun _ => RelayState.rewind h.parsed rfl, fun h => absurd h one_ne_zero⟩
  · rw [heq]
    have hlt : c.req.headerLine.off + n < c.req.headerEnd.off := by omega
    refine ⟨pipedOut_relays h.region t hn, fun _ => ?_, fun h => absurd h one_ne_zero⟩
    refine ⟨h.region, hlt.le, h.room, h.parsed, fun _ => hlt, ?_⟩
    rcases h.phase with hread | ⟨hwrite, -⟩
    · exact Or.inl hread
    · exact Or.inr ⟨hwrite, fun _ _ => hlt⟩

/-- What `read_from_pipe` reads goes behind the pending bytes. -/
lemma pipedIn_relays (h : RelayState eof c.req) (bs : Bytes) : Relays c bs (c.pipedIn bs) := by
  refine ⟨[], by rw [List.append_nil]; rfl, ?_⟩
  have hle := h.le
  obtain ⟨n, hn⟩ := Nat.exists_eq_add_of_le hle
  have hregion : (c.pipedIn bs).req.headerLine.region = .buffer := h.region
  have hbytes : (c.pipedIn bs).req.unwritten = (c.req.buffer.store (c.req.headerLine.off + n)
      (bs ++ [0])).slice c.req.headerLine.off (n + bs.length) := by
    rw [unwritten_eq hregion]
    change Mem.slice (c.req.buffer.store c.req.headerEnd.off (bs ++ [0])) c.req.headerLine.off
      (c.req.headerEnd.off + bs.length - c.req.headerLine.off) = _
    rw [hn]
    congr 1
    omega
  have hall := Mem.slice_store_end c.req.buffer c.req.headerLine.off n (bs ++ [0])
  rw [List.length_append, ← Nat.add_assoc, Mem.slice_append, ← List.append_assoc] at hall
  rw [hbytes, List.nil_append, unwritten_eq h.region, hn, Nat.add_sub_cancel_left]
  exact (List.append_inj' hall (Mem.length_slice _ _ _)).1

/-- The zero behind the data is not one of the pending bytes. -/
lemma pipeEof_relays (h : RelayState eof c.req) : Relays c [] c.pipeEof := by
  refine Relays.of_same rfl ?_
  have hle := h.le
  have hin : c.req.headerLine.off + (c.req.headerEnd.off - c.req.headerLine.off)
      ≤ c.req.headerEnd.off := by omega
  rw [unwritten_eq h.region, unwritten_eq (by exact h.region)]
  exact Mem.slice_store_of_disjoint _ [0] (Or.inl hin)

/-- `read_from_pipe` puts what it reads behind the pending bytes and may write from their
front; it ends the request only when the pipe or the socket is broken. -/
lemma readFromPipe_relays (cfg : Config) (env : Env) (h : RelayState eof c.req)
    (hstatus : c.req.status = .pipeRead) :
    Relays c (c.req.pipeInput env) (readFromPipe cfg env c).2 ∧
      ((readFromPipe cfg env c).1 ≠ 0 →
        RelayState (eof || c.req.atPipeEnd env) (readFromPipe cfg env c).2.req) ∧
      ((readFromPipe cfg env c).1 = 0 → (readFromPipe cfg env c).2.req.status = .dead) := by
  have hroom := h.room
  have hparsed := h.parsed
  rcases readFromPipe_cases cfg env c with ⟨hfull, hcase⟩ | ⟨hsome, hcase⟩
  · have hend : c.req.headerEnd.off = bufferSize + 1 := by omega
    have hinput : c.req.pipeInput env = [] := by
      rw [Request.pipeInput, Request.pipeRoom, hfull]
      cases env.pipeRead <;> simp
    rcases hcase with ⟨hparse, -⟩ | ⟨-, heq⟩
    · exact absurd hparse hparsed
    · rw [heq, hinput]
      exact ⟨Relays.of_same rfl rfl, fun _ => ⟨h.region, h.le, h.room, hparsed, h.full,
        Or.inr ⟨rfl, fun _ _ => h.full hend⟩⟩, fun h => absurd h one_ne_zero⟩
  rcases hcase with ⟨hres, heq⟩ | ⟨hres, heq⟩ | ⟨hres, heq⟩ | ⟨hres, hcase⟩ | ⟨b, bs, hres, hcase⟩
  · rw [heq, Request.pipeInput, Request.atPipeEnd, hres, Bool.or_false]
    exact ⟨Relays.of_same rfl rfl, fun _ => h, fun h => absurd h one_ne_zero⟩
  · rw [heq, Request.pipeInput, Request.atPipeEnd, hres, Bool.or_false]
    exact ⟨Relays.of_same rfl rfl, fun _ => h, fun h => absurd h (by simp)⟩
  · rw [heq, Request.pipeInput, Request.atPipeEnd, hres]
    exact ⟨die_relays c, fun h => absurd rfl h, fun _ => rfl⟩
  · rcases hcase with ⟨hparse, -⟩ | ⟨-, heq⟩
    · exact absurd hparse hparsed
    have hfound : c.req.atPipeEnd env = true := by
      rw [Request.atPipeEnd, hres]
      exact decide_eq_true hsome
    have hnone : c.req.pipeInput env = [] := by
      rw [Request.pipeInput, hres]
      exact List.take_nil
    rw [heq, hfound, Bool.or_true, hnone]
    exact ⟨pipeEof_relays h, fun _ => ⟨h.region, h.le, h.room, by simp [Conn.pipeEof], h.full,
      Or.inr ⟨rfl, fun _ h => absurd h (by simp)⟩⟩, fun h => absurd h one_ne_zero⟩
  · rcases hcase with ⟨-, heq⟩ | ⟨hparse, -⟩ | ⟨hparse, -⟩
    · have hinput : c.req.pipeInput env
          = (b :: bs).take (bufferSize + 1 - c.req.headerEnd.off) := by
        rw [Request.pipeInput, hres, Request.pipeRoom]
      have hnot : c.req.atPipeEnd env = false := by rw [Request.atPipeEnd, hres]
      have hpos : 0 < ((b :: bs).take (bufferSize + 1 - c.req.headerEnd.off)).length := by
        rw [List.length_take, List.length_cons]
        omega
      have hlen : ((b :: bs).take (bufferSize + 1 - c.req.headerEnd.off)).length
          ≤ bufferSize + 1 - c.req.headerEnd.off := List.length_take_le _ _
      rw [heq, hinput, hnot, Bool.or_false]
      generalize (b :: bs).take (bufferSize + 1 - c.req.headerEnd.off) = data at hpos hlen ⊢
      have hle := h.le
      have hlt : c.req.headerLine.off < c.req.headerEnd.off + data.length := by omega
      have hstate : RelayState eof (c.pipedIn data).req := by
        refine ⟨h.region, hlt.le, ?_, hparsed, fun _ => hlt, Or.inl hstatus⟩
        change c.req.headerEnd.off + data.length ≤ bufferSize + 1
        omega
      obtain ⟨hrel, hkeep, hzero⟩ := writeFromPipe_relays hstate
      refine ⟨?_, hkeep, fun h => ?_⟩
      · simpa using (pipedIn_relays h data).trans hrel
      · refine (hzero h).resolve_right ?_
        rintro ⟨hnone, -⟩
        exact absurd hlt (not_lt.mpr hnone)
    · exact absurd hparse hparsed
    · exact absurd hparse hparsed

end

/-! ### The header of the script -/

/-- A carriage return behind the line feed is followed by another line feed. -/
lemma findBlankLine_cr {s : Bytes} {k : ℕ} (h : findBlankLine s = some k)
    (hcr : s[k + 1]? = some 13) : k + 3 ≤ s.length := by
  rw [findBlankLine, Option.orElse_eq_or] at h
  rcases Option.or_eq_some_iff.mp h with hpat | ⟨-, hpat⟩
  · have hle := List.IsPrefix.length_le <| strstr_prefix hpat
    rw [List.length_drop] at hle
    have hlen : (str "\n\r\n").length = 3 := rfl
    omega
  · obtain ⟨t, ht⟩ := strstr_prefix hpat
    rw [← List.getElem?_drop, ← ht] at hcr
    cases hcr

/-- What follows the blank line begins in front of the end of the data. -/
lemma behindLine_lt {r : Request} {buf k : ℕ} (hbuf : buf ≤ r.headerEnd.off)
    (hzero : r.buffer r.headerEnd.off = 0)
    (hfind : findBlankLine (r.bufferString buf) = some k) :
    behindLine r (buf + k) < r.headerEnd.off := by
  have hlen : (r.bufferString buf).length ≤ r.headerEnd.off - buf :=
    Mem.length_cstr_le_of_zero (by rwa [Nat.add_sub_cancel' hbuf])
  have hspec := (findBlankLine_spec hfind).2
  rw [behindLine]
  split_ifs with hcr
  · have hin : k + 1 < (r.bufferString buf).length := by omega
    have hbyte : (r.bufferString buf)[k + 1]? = some 13 := by
      obtain ⟨t, ht⟩ : r.bufferString buf <+: r.buffer.slice buf (bufferSize + 2 - buf) :=
        List.takeWhile_prefix _
      have hslice : k + 1 < (r.buffer.slice buf (bufferSize + 2 - buf)).length := by
        rw [← ht, List.length_append]
        omega
      have hget := Mem.getElem_slice r.buffer buf _ (k + 1) hslice
      rw [← Nat.add_assoc, hcr] at hget
      rw [List.getElem?_eq_getElem hin, ← hget]
      simp only [← ht, List.getElem_append_left hin]
    have hmore := findBlankLine_cr hfind hbyte
    omega
  · omega

/-- The state in which `read_from_pipe` calls `process_cgi_header`. -/
structure HeaderComplete (eof : Bool) (r : Request) : Prop where
  line : r.headerLine = ⟨.buffer, bufferSize / 2⟩
  le : bufferSize / 2 ≤ r.headerEnd.off
  room : r.headerEnd.off ≤ bufferSize + 1
  zero : r.buffer r.headerEnd.off = 0
  phase : r.status = .pipeRead ∨ (r.status = .pipeWrite ∧ eof = true)

/-- The request is relayed, or it has been given its end. -/
def RelaysOrEnds (eof : Bool) (c : Conn) : Prop :=
  RelayState eof c.req ∨ ReqStatus.done.code ≤ c.req.status.code

section

variable {eof : Bool} {c : Conn}

/-- Output leaves the status alone, or ends the request. -/
lemma Outputs.relaysOrEnds {c' : Conn} (h : Outputs c c')
    (hstate : c'.req.status = c.req.status → RelayState eof c'.req) : RelaysOrEnds eof c' :=
  h.status.imp hstate id

lemma HeaderComplete.phase_of_status {r r' : Request} (h : HeaderComplete eof r)
    (hs : r'.status = r.status) : r'.status = .pipeRead ∨ (r'.status = .pipeWrite ∧
      (r'.cgiStatus = .done → eof = false → r'.headerLine.off < r'.headerEnd.off)) := by
  rw [hs]
  refine h.phase.imp id fun ⟨hwrite, heof⟩ => ⟨hwrite, fun _ hno => ?_⟩
  rw [heof] at hno
  cases hno

/-- The data of the script is behind the header of the server. -/
lemma cgiMerge_relaysOrEnds {cfg : Config} {env : Env} {blank : ℕ} {r : Request}
    (h : HeaderComplete eof r) (hstatus : c.req.status = r.status)
    (hparse : c.req.cgiStatus ≠ .parse) (hret : (cgiMerge cfg env blank c).1 ≠ 0) :
    RelaysOrEnds eof (cgiMerge cfg env blank c).2 := by
  have hanswer := cgiAnswered_cgiStatus cfg env blank hparse
  have hsame : (cgiAnswered cfg env blank c).req.status = c.req.status ∨
      ReqStatus.done.code ≤ (cgiAnswered cfg env blank c).req.status.code := by
    have hok := (sendRRequestOk_outputs cfg env c).status
    rw [cgiAnswered]
    split_ifs <;> exact hok
  rw [cgiMerge_eq] at hret ⊢
  generalize cgiAnswered cfg env blank c = d at hanswer hsame hret ⊢
  by_cases hfit : bufferSize < d.req.bufferEnd + (d.req.headerEnd.off - d.req.headerLine.off)
  · rw [if_pos hfit] at hret
    exact absurd rfl hret
  rw [if_neg hfit]
  have hflush := reqFlush_outputs d.merged
  rcases hsame with hsame | hdone
  swap
  · exact Or.inr (hflush.status.elim (fun hs => hs ▸ hdone) id)
  refine hflush.relaysOrEnds fun hs => ?_
  have hphase := h.phase_of_status (hs.trans (hsame.trans hstatus))
  have hroom : d.req.bufferEnd + (d.req.buffer.slice d.req.headerLine.off
      (d.req.headerEnd.off - d.req.headerLine.off)).length ≤ bufferSize := by
    rw [Mem.length_slice]
    exact not_lt.mp hfit
  obtain ⟨st, ka, rs, rg, buf, bs, be, hreq⟩ := hflush.req
  rw [hreq] at hphase ⊢
  refine ⟨rfl, le_rfl, hroom.trans (Nat.le_succ _), hanswer, fun hfull => ?_, hphase⟩
  exact absurd hfull (ne_of_lt (Nat.lt_succ_of_le hroom))

/-- `process_cgi_header` hands a request over that can be relayed, unless it ends it. -/
lemma processCgiHeader_relaysOrEnds {cfg : Config} {env : Env} (h : HeaderComplete eof c.req)
    (hret : (processCgiHeader cfg env c).1 ≠ 0) :
    RelaysOrEnds eof (processCgiHeader cfg env c).2 := by
  have hparse := cgiBegun_cgiStatus c
  have hline := h.line
  have hle := h.le
  have hphase : ∀ r' : Request, r'.status = c.req.status → r'.status = .pipeRead ∨
      (r'.status = .pipeWrite ∧
        (r'.cgiStatus = .done → eof = false → r'.headerLine.off < r'.headerEnd.off)) :=
    fun r' => h.phase_of_status
  rcases processCgiHeader_cases cfg env c with heq | ⟨k, hfind, hcase⟩
  · rw [heq] at hret
    exact absurd rfl hret
  rcases hcase with ⟨-, heq⟩ | heq | ⟨-, heq⟩ | heq
  · have hlt : behindLine c.req (c.req.headerLine.off + k) < c.req.headerEnd.off :=
      behindLine_lt (by rwa [hline]) h.zero hfind
    rw [heq]
    exact Or.inl ⟨rfl, hlt.le, h.room, hparse, fun _ => hlt, hphase _ rfl⟩
  · have hlt : c.req.headerLine.off - 1 < c.req.headerEnd.off := by
      rw [hline]
      exact lt_of_lt_of_le (by simp [bufferSize]) hle
    rw [heq]
    exact Or.inl ⟨rfl, hlt.le, h.room, hparse, fun _ => hlt, hphase _ rfl⟩
  · rw [heq]
    exact Or.inr le_rfl
  · rw [heq] at hret ⊢
    exact cgiMerge_relaysOrEnds h rfl hparse hret

end

/-! ### The visits -/

/-- A request whose script has not finished its header. -/
structure ParseState (r : Request) : Prop where
  status : r.status = .pipeRead
  parse : r.cgiStatus = .parse
  line : r.headerLine = ⟨.buffer, bufferSize / 2⟩
  le : bufferSize / 2 ≤ r.headerEnd.off
  room : r.headerEnd.off ≤ bufferSize + 1

/-- Where a request with a child stands. -/
def RelayPhase (eof : Bool) (c : Conn) : Prop := ParseState c.req ∨ RelaysOrEnds eof c

section

variable {eof : Bool} {c : Conn}

/-- `read_from_pipe` collects the header of the script, or hands the request over. -/
lemma readFromPipe_parses {cfg : Config} {env : Env} (h : ParseState c.req)
    (hret : (readFromPipe cfg env c).1 ≠ 0) :
    RelayPhase (eof || c.req.atPipeEnd env) (readFromPipe cfg env c).2 := by
  have hroom := h.room
  rcases readFromPipe_cases cfg env c with ⟨-, hcase⟩ | ⟨hsome, hcase⟩
  · rcases hcase with ⟨-, heq⟩ | ⟨hparse, -⟩
    · rw [heq] at hret ⊢
      refine Or.inr (processCgiHeader_relaysOrEnds ?_ hret)
      exact ⟨h.line, h.le, h.room, Mem.store_end_zero _ _ [], Or.inl h.status⟩
    · exact absurd h.parse hparse
  rcases hcase with ⟨-, heq⟩ | ⟨-, heq⟩ | ⟨-, heq⟩ | ⟨hres, hcase⟩ | ⟨b, bs, -, hcase⟩
  · rw [heq]
    exact Or.inl h
  · rw [heq]
    exact Or.inl h
  · rw [heq] at hret
    exact absurd rfl hret
  · rcases hcase with ⟨-, heq⟩ | ⟨hparse, -⟩
    · have hfound : c.req.atPipeEnd env = true := by
        rw [Request.atPipeEnd, hres]
        exact decide_eq_true hsome
      rw [heq] at hret ⊢
      rw [hfound, Bool.or_true]
      refine Or.inr (processCgiHeader_relaysOrEnds ?_ hret)
      exact ⟨h.line, h.le, h.room, Mem.store_end_zero _ _ [], Or.inr ⟨rfl, rfl⟩⟩
    · exact absurd h.parse hparse
  · have hlen : ((b :: bs).take (bufferSize + 1 - c.req.headerEnd.off)).length
        ≤ bufferSize + 1 - c.req.headerEnd.off := List.length_take_le _ _
    generalize (b :: bs).take (bufferSize + 1 - c.req.headerEnd.off) = data at hcase hlen
    have hfit : c.req.headerEnd.off + data.length ≤ bufferSize + 1 := by omega
    have hle : bufferSize / 2 ≤ c.req.headerEnd.off + data.length :=
      h.le.trans (Nat.le_add_right _ _)
    rcases hcase with ⟨hparse, -⟩ | ⟨-, heq⟩ | ⟨-, heq⟩
    · exact absurd h.parse hparse
    · rw [heq]
      exact Or.inl ⟨h.status, h.parse, h.line, hle, hfit⟩
    · rw [heq] at hret ⊢
      refine Or.inr (processCgiHeader_relaysOrEnds ?_ hret)
      exact ⟨h.line, hle, hfit, Mem.store_end_zero _ _ [], Or.inl h.status⟩

lemma relayState_status (h : RelayState eof c.req) :
    c.req.status = .pipeRead ∨ c.req.status = .pipeWrite :=
  h.phase.imp id And.left

/-- What a handler reads of the output. -/
def Request.handlerInput (env : Env) (r : Request) : Bytes :=
  if r.status = .pipeRead then r.pipeInput env else []

/-- A handler finds the end of the output. -/
def Request.handlerAtEnd (env : Env) (r : Request) : Bool :=
  r.status == .pipeRead && r.atPipeEnd env

/-- The handler of a request that is relayed. -/
lemma handleStatus_relays (cfg : Config) (env : Env) (h : RelayState eof c.req) :
    Relays c (c.req.handlerInput env) (handleStatus cfg env c).2 ∧
      ((handleStatus cfg env c).1 ≠ 0 →
        RelayState (eof || c.req.handlerAtEnd env) (handleStatus cfg env c).2.req) ∧
      ((handleStatus cfg env c).1 = 0 → (handleStatus cfg env c).2.req.status = .dead ∨
        (eof = true ∧ (handleStatus cfg env c).2.req.unwritten = [])) := by
  have hphase := h.phase
  rcases relayState_status h with hstatus | hstatus
  · have heq : handleStatus cfg env c = readFromPipe cfg env c := by rw [handleStatus, hstatus]
    have hin : c.req.handlerInput env = c.req.pipeInput env := if_pos hstatus
    have hend : c.req.handlerAtEnd env = c.req.atPipeEnd env := by
      rw [Request.handlerAtEnd, hstatus]
      rfl
    obtain ⟨hrel, hstate, hdead⟩ := readFromPipe_relays cfg env h hstatus
    rw [heq, hin, hend]
    exact ⟨hrel, hstate, fun hret => Or.inl (hdead hret)⟩
  · have heq : handleStatus cfg env c = writeFromPipe c := by rw [handleStatus, hstatus]
    have hin : c.req.handlerInput env = [] := if_neg (by simp [hstatus])
    have hend : c.req.handlerAtEnd env = false := by
      rw [Request.handlerAtEnd, hstatus]
      rfl
    obtain ⟨hrel, hstate, hdead⟩ := writeFromPipe_relays h
    rw [heq, hin, hend, Bool.or_false]
    refine ⟨hrel, hstate, fun hret => (hdead hret).imp id ?_⟩
    rintro ⟨hnone, hdone, hsame⟩
    rw [hsame]
    constructor
    · rcases hphase with hread | ⟨-, hwrite⟩
      · rw [hread] at hstatus
        cases hstatus
      · by_contra heof
        exact absurd (hwrite hdone (Bool.eq_false_iff.mpr heof)) (not_lt.mpr hnone)
    · refine List.eq_nil_of_length_eq_zero ?_
      rw [length_unwritten]
      omega

/-- The handler of a request with a child. -/
lemma handleStatus_phase {cfg : Config} {env : Env} (h : RelayPhase eof c)
    (hret : (handleStatus cfg env c).1 ≠ 0) :
    RelayPhase (eof || c.req.handlerAtEnd env) (handleStatus cfg env c).2 := by
  rcases h with hparse | hrelay | hdone
  · have hstatus := hparse.status
    have hend : c.req.handlerAtEnd env = c.req.atPipeEnd env := by
      rw [Request.handlerAtEnd, hstatus]
      rfl
    rw [handleStatus, hstatus] at hret ⊢
    rw [hend]
    exact readFromPipe_parses hparse hret
  · obtain ⟨-, hstate, -⟩ := handleStatus_relays cfg env hrelay
    exact Or.inr (Or.inl (hstate hret))
  · refine Or.inr (Or.inr ?_)
    cases hstatus : c.req.status with
    | done =>
        rw [handleStatus, hstatus]
        exact (processDone_outputs c).status.elim (fun hs => hs ▸ hdone) id
    | timedOut =>
        rw [handleStatus, hstatus] at hret
        exact absurd rfl hret
    | dead =>
        rw [handleStatus, hstatus] at hret
        exact absurd rfl hret
    | _ =>
        rw [hstatus] at hdone
        exact absurd hdone (by simp [ReqStatus.code])

end

/-! ### The flush -/

lemma reqFlush_buffer (c : Conn) : (reqFlush c).2.req.buffer = c.req.buffer := by
  have hdone : ∀ d : Conn, (flushDone d).2.req.buffer = d.req.buffer := by
    intro d
    rw [flushDone]
    dsimp only
    split_ifs <;> rfl
  rw [reqFlush]
  split_ifs
  · rfl
  · exact hdone c
  · rcases hpop : c.pop with ⟨res, d⟩
    obtain ⟨t, rfl⟩ := pop_setTape hpop
    cases res with
    | again => rfl
    | intr => rfl
    | error => rfl
    | accept n =>
        dsimp only
        rw [hdone]
        rfl

/-- Output that leaves the buffer alone does not matter to what is relayed. -/
lemma Relays.of_outputs {c c' : Conn} (h : Outputs c c') (hbuf : c'.req.buffer = c.req.buffer) :
    Relays c [] c' := by
  obtain ⟨es, htrace, hes⟩ := h.events
  obtain ⟨st, ka, rs, rg, buf, bs, be, hreq⟩ := h.req
  refine Relays.of_same ?_ ?_
  · rw [htrace, relayed_append, relayed_of_output hes, List.append_nil]
  · rw [hreq] at hbuf ⊢
    dsimp only at hbuf
    rw [hbuf]
    rfl

lemma flushFirst_buffer (c : Conn) : (flushFirst c).2.req.buffer = c.req.buffer := by
  have hbuf := reqFlush_buffer c
  rw [flushFirst]
  split_ifs
  · generalize reqFlush c = res at hbuf ⊢
    obtain ⟨retval, d⟩ := res
    dsimp only at hbuf ⊢
    split_ifs <;> simp [Conn.setStatus, hbuf]
  · rfl

/-- A flush that fails is an error. -/
lemma flushFirst_dead {c : Conn} (h : (flushFirst c).1 = 0) :
    (flushFirst c).2.req.status = .dead := by
  rw [flushFirst] at h ⊢
  split_ifs at h ⊢
  · generalize reqFlush c = res at h ⊢
    obtain ⟨retval, d⟩ := res
    dsimp only at h ⊢
    split_ifs at h ⊢ with herr hok
    · rfl
    · simp at h
    · exact absurd h.ge hok
  · simp at h

/-- The flush does not matter to what is relayed. -/
lemma flushFirst_relays (c : Conn) : Relays c [] (flushFirst c).2 :=
  Relays.of_outputs (flushFirst_outputs c) (flushFirst_buffer c)

/-- `SQUASH_KA` does not matter to what is relayed. -/
lemma squashIf_relays (sigterm : Bool) (c : Conn) :
    Relays c [] (if sigterm = true then c.squashKa else c) := by
  split_ifs
  · exact Relays.of_same rfl rfl
  · exact Relays.of_same rfl rfl

lemma RelayState.squash {eof : Bool} {c : Conn} (h : RelayState eof c.req) (sigterm : Bool) :
    RelayState eof (if sigterm = true then c.squashKa else c).req := by
  obtain ⟨ka, hreq⟩ := squashIf_req sigterm c
  rw [hreq]
  exact ⟨h.region, h.le, h.room, h.parsed, h.full, h.phase⟩

lemma RelayPhase.squash {eof : Bool} {c : Conn} (h : RelayPhase eof c) (sigterm : Bool) :
    RelayPhase eof (if sigterm = true then c.squashKa else c) := by
  rcases h with hparse | hrelay | hdone
  · obtain ⟨ka, hreq⟩ := squashIf_req sigterm c
    rw [RelayPhase, hreq]
    exact Or.inl ⟨hparse.status, hparse.parse, hparse.line, hparse.le, hparse.room⟩
  · exact Or.inr (Or.inl (hrelay.squash sigterm))
  · obtain ⟨ka, hreq⟩ := squashIf_req sigterm c
    rw [RelayPhase, RelaysOrEnds, hreq]
    exact Or.inr (Or.inr hdone)

/-! ### What a visit keeps -/

section

variable {cfg : Config} {env : Env} {d : Relay}

/-- A visit whose flush succeeds. -/
lemma relay_of_flush (hend : d.ended = false) {c : Conn}
    (hflush : flushFirst { d.conn with tape := env.sock } = (1, c)) :
    relay cfg d env =
      { conn := if env.sigterm = true then (handleStatus cfg env c).2.squashKa
          else (handleStatus cfg env c).2
        read := d.read ++ c.req.handlerInput env
        eof := d.eof || c.req.handlerAtEnd env
        ended := decide ((handleStatus cfg env c).1 = 0) } := by
  rw [relay, hend, if_neg Bool.false_ne_true]
  dsimp only
  rw [processRequest_of_flush hflush, hflush]
  by_cases hread : c.req.status = .pipeRead
  · simp [Request.handlerInput, Request.handlerAtEnd, hread]
  · simp [Request.handlerInput, Request.handlerAtEnd, hread]

/-- A visit that ends with its flush. -/
lemma relay_of_no_flush (hend : d.ended = false)
    (hflush : (flushFirst { d.conn with tape := env.sock }).1 ≠ 1) :
    relay cfg d env =
      { conn := if env.sigterm = true
          then (flushFirst { d.conn with tape := env.sock }).2.squashKa
          else (flushFirst { d.conn with tape := env.sock }).2
        read := d.read
        eof := d.eof
        ended := decide ((flushFirst { d.conn with tape := env.sock }).1 = 0) } := by
  rw [relay, hend, if_neg Bool.false_ne_true]
  dsimp only
  rw [processRequest, if_neg hflush]
  simp [hflush]

/-- A visit to a request with a child. -/
lemma relay_phase (hend : d.ended = false) (h : RelayPhase d.eof d.conn)
    (hend' : (relay cfg d env).ended = false) :
    RelayPhase (relay cfg d env).eof (relay cfg d env).conn := by
  rcases flushFirst_cases { d.conn with tape := env.sock } with
    ⟨hfail, -⟩ | ⟨t, -, -, -, hflush⟩ | ⟨t, es, s, e, hflush, -, -⟩
  · rw [relay_of_no_flush hend (by rw [hfail]; exact zero_ne_one), hfail] at hend'
    cases hend'
  · rw [relay_of_no_flush hend (by rw [hflush]; simp), hflush]
    have hsame : RelayPhase d.eof (({ d.conn with tape := env.sock } : Conn).setTape t) := h
    exact hsame.squash env.sigterm
  · have hsame : RelayPhase d.eof
        (({ d.conn with tape := env.sock } : Conn).cursors t es s e) := by
      rcases h with hparse | hrelay | hdone
      · exact Or.inl ⟨hparse.status, hparse.parse, hparse.line, hparse.le, hparse.room⟩
      · exact Or.inr (Or.inl (hrelay.of_cursors s e))
      · exact Or.inr (Or.inr hdone)
    generalize ({ d.conn with tape := env.sock } : Conn).cursors t es s e = c at hflush hsame
    rw [relay_of_flush hend hflush] at hend' ⊢
    have hret : (handleStatus cfg env c).1 ≠ 0 := of_decide_eq_false hend'
    exact (handleStatus_phase hsame hret).squash env.sigterm

end

/-- What holds in the visits behind `d₁`: the bytes on the socket and the pending ones are the
ones that were pending and the ones that have been read, and the request ends without an
error when the end has been found and nothing is pending. -/
structure Relaying (d₁ d : Relay) : Prop where
  stream : Relays d₁.conn d.read d.conn
  state : d.ended = false → RelayState d.eof d.conn.req
  done : d.ended = true → d.conn.req.status = .dead ∨
    (d.eof = true ∧ d.conn.req.unwritten = [])

/-- One visit. -/
lemma relay_relaying {cfg : Config} {env : Env} {d₁ d : Relay} (h : Relaying d₁ d) :
    Relaying d₁ (relay cfg d env) := by
  cases hend : d.ended with
  | true =>
      rw [relay, hend, if_pos rfl]
      exact h
  | false =>
      have hstate := h.state hend
      have hstart : Relays d.conn [] { d.conn with tape := env.sock } := Relays.of_same rfl rfl
      have hrel := flushFirst_relays { d.conn with tape := env.sock }
      rcases flushFirst_cases { d.conn with tape := env.sock } with
        ⟨hfail, -⟩ | ⟨t, -, -, -, hflush⟩ | ⟨t, es, s, e, hflush, -, -⟩
      · have hdead := flushFirst_dead hfail
        rw [relay_of_no_flush hend (by rw [hfail]; exact zero_ne_one)]
        generalize flushFirst { d.conn with tape := env.sock } = res at hrel hdead hfail ⊢
        refine ⟨?_, fun h => ?_, fun _ => Or.inl ?_⟩
        · simpa using h.stream.trans ((hstart.trans hrel).trans
            (squashIf_relays env.sigterm res.2))
        · rw [hfail] at h
          cases h
        · obtain ⟨ka, hreq⟩ := squashIf_req env.sigterm res.2
          rw [hreq]
          exact hdead
      · rw [relay_of_no_flush hend (by rw [hflush]; simp)]
        rw [hflush] at hrel ⊢
        refine ⟨?_, fun _ => ?_, fun h => absurd h (by simp)⟩
        · simpa using h.stream.trans ((hstart.trans hrel).trans
            (squashIf_relays env.sigterm _))
        · have hsame : RelayState d.eof
              (({ d.conn with tape := env.sock } : Conn).setTape t).req := hstate
          exact hsame.squash env.sigterm
      · have hsame : RelayState d.eof
            (({ d.conn with tape := env.sock } : Conn).cursors t es s e).req :=
          hstate.of_cursors s e
        rw [hflush] at hrel
        generalize ({ d.conn with tape := env.sock } : Conn).cursors t es s e = c
          at hflush hsame hrel
        obtain ⟨hhandle, hnext, hlast⟩ := handleStatus_relays cfg env hsame
        rw [relay_of_flush hend hflush]
        refine ⟨?_, fun h => ?_, fun h => ?_⟩
        · simpa using h.stream.trans ((hstart.trans hrel).trans
            (hhandle.trans (squashIf_relays env.sigterm _)))
        · exact (hnext (of_decide_eq_false h)).squash env.sigterm
        · obtain ⟨ka, hreq⟩ := squashIf_req env.sigterm (handleStatus cfg env c).2
          dsimp only
          rw [hreq]
          refine (hlast (of_decide_eq_true h)).imp id ?_
          rintro ⟨heof, hnone⟩
          exact ⟨by rw [heof, Bool.true_or], hnone⟩

/-! ### Whole runs -/

/-- A request with a child stands in one of the phases as long as no visit has ended it. -/
lemma relays_phase {cfg : Config} {d : Relay} (h : d.ended = false → RelayPhase d.eof d.conn)
    (envs : List Env) : (Run.runs (relay cfg) d envs).ended = false →
      RelayPhase (Run.runs (relay cfg) d envs).eof (Run.runs (relay cfg) d envs).conn := by
  have hstep : ∀ (d : Relay) (env : Env), (d.ended = false → RelayPhase d.eof d.conn) → True →
      ((relay cfg d env).ended = false →
        RelayPhase (relay cfg d env).eof (relay cfg d env).conn) := by
    intro d env h _ hend'
    have hend : d.ended = false := by
      by_contra hnot
      rw [Bool.not_eq_false] at hnot
      rw [relay, hnot, if_pos rfl, hnot] at hend'
      cases hend'
    exact relay_phase hend (h hend) hend'
  exact Run.runs_invariant hstep envs _ h (Run.allowed_true _ _ _)

lemma relays_relaying {cfg : Config} {d₁ d : Relay} (h : Relaying d₁ d) (envs : List Env) :
    Relaying d₁ (Run.runs (relay cfg) d envs) := by
  have hstep : ∀ (d : Relay) (env : Env), Relaying d₁ d → True →
      Relaying d₁ (relay cfg d env) := fun d env h _ => relay_relaying h
  exact Run.runs_invariant hstep envs _ h (Run.allowed_true _ _ _)

/-- The parent goes on with a pipe whose output is parsed or relayed. -/
lemma initCgiParent_phase {pipes : Option (ℕ × ℕ)} {c : Conn}
    (h : (initCgiParent pipes c).1 = 1) : RelayPhase false (initCgiParent pipes c).2 := by
  cases pipes with
  | none => exact absurd h zero_ne_one
  | some pipes =>
      obtain ⟨readEnd, writeEnd⟩ := pipes
      simp only [initCgiParent]
      generalize (if c.req.method = .post then _ else c : Conn) = d
      by_cases hcgi : d.req.cgiType = .cgi
      · refine Or.inl ⟨rfl, ?_, ?_, ?_, ?_⟩ <;> simp [hcgi]
        exact (Nat.div_le_self _ _).trans (Nat.le_succ _)
      · refine Or.inr (Or.inl ⟨?_, ?_, ?_, ?_, ?_, Or.inl rfl⟩) <;> simp [hcgi]

lemma initCgi_phase (cfg : Config) (env : Env) (c : Conn) (h : (initCgi cfg env c).1 = 1) :
    RelayPhase false (initCgi cfg env c).2 := by
  have hfork : ∀ (pipes : Option (ℕ × ℕ)) (c : Conn), (initCgiFork cfg env pipes c).1 = 1 →
      RelayPhase false (initCgiFork cfg env pipes c).2 := by
    intro pipes c h
    rw [initCgiFork] at h ⊢
    split_ifs at h ⊢
    · exact initCgiParent_phase h
    · exact absurd h zero_ne_one
  have hpipes : ∀ c : Conn, (initCgiPipes cfg env c).1 = 1 →
      RelayPhase false (initCgiPipes cfg env c).2 := by
    intro c h
    rw [initCgiPipes] at h ⊢
    by_cases hchild : c.req.cgiType = .cgi ∨
        (c.req.cgiType = .none ∧ endsInSlash (c.req.pathname.getD []))
    · rw [if_pos hchild] at h ⊢
      cases hpipe : env.pipe with
      | none =>
          rw [hpipe] at h
          exact absurd h zero_ne_one
      | some ends =>
          rw [hpipe] at h
          dsimp only at h ⊢
          by_cases hnonblock : env.nonblockOk = true
          · rw [if_pos hnonblock] at h ⊢
            exact hfork _ _ h
          · rw [if_neg hnonblock] at h
            exact absurd h zero_ne_one
    · rw [if_neg hchild] at h ⊢
      exact hfork _ _ h
  rw [initCgi] at h ⊢
  split_ifs at h ⊢
  · exact hpipes _ h
  · generalize completeEnv cfg c.squashKa.req = res at h ⊢
    obtain ⟨ok, r⟩ := res
    cases ok with
    | true => exact hpipes _ h
    | false => exact absurd h zero_ne_one

/-- **The output of a script is relayed as a queue**: whenever `init_cgi` has started a script
or a listing, and after some visits `envs` the header has been dealt with and the request is in
`PIPE_READ` or `PIPE_WRITE`, then after any further visits the bytes that `write_from_pipe` has
written, followed by the ones in `[header_line, header_end)`, are the bytes that were pending
and the ones that have been read since; and the request ends without an error only when `read`
has found the end of the output and nothing is pending. -/
theorem cgi_relay_fifo {cfg : Config} {env : Env} {c c₀ : Conn} {term : Bool} {d₁ d : Relay}
    {envs envs' : List Env} (hstart : initCgi cfg env c = (1, c₀))
    (hheader : Run.runs (relay cfg) { conn := if term = true then c₀.squashKa else c₀ } envs = d₁)
    (hlive : d₁.ended = false)
    (hstatus : d₁.conn.req.status = .pipeRead ∨ d₁.conn.req.status = .pipeWrite)
    (hparsed : d₁.conn.req.cgiStatus ≠ .parse)
    (hrun : Run.runs (relay cfg) { d₁ with read := [] } envs' = d) :
    (∃ written, relayed d.conn.trace = relayed d₁.conn.trace ++ written ∧
      written ++ d.conn.req.unwritten = d₁.conn.req.unwritten ++ d.read) ∧
    (d.ended = true → d.conn.req.status ≠ .dead →
      d.eof = true ∧ d.conn.req.unwritten = []) := by
  have hinit : RelayPhase false c₀ := by
    have hphase := initCgi_phase cfg env c (by rw [hstart])
    rwa [hstart] at hphase
  have hphase : RelayPhase d₁.eof d₁.conn := by
    rw [← hheader] at hlive ⊢
    exact relays_phase (fun _ => hinit.squash term) envs hlive
  have hstate : RelayState d₁.eof d₁.conn.req := by
    rcases hphase with hparse | hrelay | hdone
    · exact absurd hparse.parse hparsed
    · exact hrelay
    · rcases hstatus with hstatus | hstatus <;>
      · rw [hstatus] at hdone
        exact absurd hdone (by simp [ReqStatus.code])
  have hall : Relaying d₁ d := by
    have hfirst : Relaying d₁ { d₁ with read := [] } := by
      refine ⟨Relays.of_same rfl rfl, fun _ => hstate, fun h => ?_⟩
      rw [hlive] at h
      cases h
    rw [← hrun]
    exact relays_relaying hfirst envs'
  exact ⟨hall.stream, fun h hnot => (hall.done h).resolve_left hnot⟩

/-! ### A script that pauses -/

/-- A request for a script. -/
def scriptRequest : Conn where
  req := { fd := 4, method := .get, httpVersion := .http10, cgiType := .cgi
           pathname := some (str "/w/x.cgi") }

/-- The script is started. -/
def scriptEnv : Env := { pipe := some (5, 6), forkOk := true }

/-- The header of the script, which the client takes at once. -/
def scriptHeader : List Env :=
  [{ pipeRead := .data (str "A: b\n\nhello"), sock := [.accept 4096] }]

/-- The client takes the output in small pieces, and the script ends. -/
def scriptOutput : List Env :=
  [{ pipeRead := .data (str "abcde"), sock := [.accept 3] },
    { pipeRead := .data (str "fg"), sock := [.again] },
    { pipeRead := .again },
    { pipeRead := .data (str "h"), sock := [.intr] },
    { pipeRead := .data [] },
    { sock := [.accept 2] },
    { sock := [.accept 9] },
    { pipeRead := .data [] },
    {}]

/-- The request when its header has been dealt with. -/
def scriptHanded : Relay :=
  Run.runs (relay emptyServer) { conn := (initCgi emptyServer scriptEnv scriptRequest).2 }
    scriptHeader

/-- The request at its end. -/
def scriptRelayed : Relay :=
  Run.runs (relay emptyServer) { scriptHanded with read := [] } scriptOutput

/-- The output of such a script reaches the client. -/
theorem cgi_relay_fifo_pieces :
    scriptRelayed.ended = true ∧ scriptRelayed.read = str "abcdefgh" ∧
      (∃ written, relayed scriptRelayed.conn.trace = relayed scriptHanded.conn.trace ++ written ∧
        written ++ scriptRelayed.conn.req.unwritten
          = scriptHanded.conn.req.unwritten ++ scriptRelayed.read) ∧
      scriptRelayed.conn.req.unwritten = [] := by
  have hstart : initCgi emptyServer scriptEnv scriptRequest
      = (1, (initCgi emptyServer scriptEnv scriptRequest).2) := eq_mk_snd (by decide)
  have hended : scriptRelayed.ended = true := by decide +kernel
  have hheader : Run.runs (relay emptyServer) { conn := if false = true
      then (initCgi emptyServer scriptEnv scriptRequest).2.squashKa
      else (initCgi emptyServer scriptEnv scriptRequest).2 } scriptHeader = scriptHanded := by
    rw [if_neg Bool.false_ne_true, scriptHanded]
  obtain ⟨hstream, hdone⟩ := cgi_relay_fifo hstart hheader (by decide +kernel)
    (by decide +kernel) (by decide +kernel) (d := scriptRelayed) rfl
  exact ⟨hended, by decide +kernel, hstream, (hdone hended (by decide +kernel)).2⟩

end Yabwf
