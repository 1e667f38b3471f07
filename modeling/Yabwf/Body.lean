import Yabwf.Lib.Run
import Yabwf.Visit

/-!
The body of a `POST` on its way to the temporary file.

* `Delivery`, `deliver`: the visits between `read_header` and `init_cgi`, with what
  `read_body` has read and what `write_body` has written.
* `Delivering`: the bytes in the file, followed by the pending ones, are the bytes of the
  body that have come in.
* `deliver_delivering`: one visit keeps this; `post_body_delivered`: hence all of them do,
  and the script starts when the whole body is in the file.
-/

namespace Yabwf

open Memory

/-- The bytes at a pointer. -/
def Request.bytesAt (r : Request) (p : Ptr) (n : ℕ) : Bytes :=
  match p.region with
  | .clientStream => r.clientStream.slice p.off n
  | .buffer => r.buffer.slice p.off n

/-- The bytes in `[header_line, header_end)`. -/
def Request.unwritten (r : Request) : Bytes :=
  r.bytesAt r.headerLine (r.headerEnd.off - r.headerLine.off)

/-- How many bytes `write_body` offers to the file. -/
def Request.bodyToWrite (r : Request) : ℕ :=
  min (r.headerEnd.off - r.headerLine.off) (r.filesize - r.filepos)

/-- How many bytes `read_body` asks the socket for. -/
def Request.bodyToRead (r : Request) : ℕ :=
  min (r.filesize - r.filepos) (bufferSize - (r.headerEnd.off - r.headerLine.off))

/-- What `write_body` writes. -/
def Request.bodyWritten (env : Env) (r : Request) : Bytes :=
  match env.postWrite with
  | .accept n => r.unwritten.take (min n r.bodyToWrite)
  | _ => []

/-- What `read_body` reads. -/
def Request.bodyRead (env : Env) (r : Request) : Bytes :=
  match env.sockRead with
  | .data bs => bs.take r.bodyToRead
  | _ => []

/-- `write_body` goes on to `init_cgi`. -/
def Request.startsCgi (r : Request) : Bool :=
  r.status == .bodyWrite && r.bodyToWrite == 0 && r.filesize ≤ r.filepos

/-- A request whose body is being read: what `read_body` has read so far, what
`write_body` has written, whether it has called `init_cgi`, and whether the body has been
dealt with or given up. -/
structure Delivery where
  conn : Conn
  read : Bytes := []
  written : Bytes := []
  cgi : Bool := false
  ended : Bool := false

/-- A visit to such a request. -/
def deliver (cfg : Config) (d : Delivery) (env : Env) : Delivery :=
  if d.ended then d
  else
    let flushed := flushFirst { d.conn with tape := env.sock }
    let retval := (processRequest cfg env { d.conn with tape := env.sock }).1
    let r := flushed.2.req
    { conn := visit cfg env d.conn
      read := if flushed.1 = 1 ∧ r.status = .bodyRead then d.read ++ r.bodyRead env else d.read
      written :=
        if flushed.1 = 1 ∧ r.status = .bodyWrite then d.written ++ r.bodyWritten env
        else d.written
      cgi := decide (flushed.1 = 1) && r.startsCgi
      ended := decide (retval = 0) || (decide (flushed.1 = 1) && r.startsCgi) }

/-! ### The handlers -/

/-- `write_body` calls `init_cgi`, goes on to `read_body`, is blocked by the file, is
interrupted, fails, or writes. -/
lemma writeBody_cases (cfg : Config) (env : Env) (c : Conn) :
    (c.req.bodyToWrite = 0 ∧
      ((c.req.filesize ≤ c.req.filepos ∧ writeBody cfg env c = initCgi cfg env c.rewind) ∨
        (c.req.filepos < c.req.filesize ∧
          writeBody cfg env c = (1, c.rewind.setStatus .bodyRead)))) ∨
    (c.req.bodyToWrite ≠ 0 ∧
      ((env.postWrite = .again ∧ writeBody cfg env c = (-1, c)) ∨
        (env.postWrite = .intr ∧ writeBody cfg env c = (1, c)) ∨
        (env.postWrite = .error ∧ writeBody cfg env c = (0, boaPerror cfg env c)) ∨
        ∃ n, env.postWrite = .accept n ∧ writeBody cfg env c = (1, c.upd fun r => { r with
          filepos := r.filepos + min n c.req.bodyToWrite
          headerLine := r.headerLine.add (min n c.req.bodyToWrite) }))) := by
  unfold writeBody
  dsimp only
  by_cases hzero : c.req.bodyToWrite = 0
  · refine Or.inl ⟨hzero, ?_⟩
    rw [Request.bodyToWrite] at hzero
    rw [if_pos hzero]
    by_cases hall : c.req.filesize ≤ c.req.filepos
    · exact Or.inl ⟨hall, if_pos hall⟩
    · exact Or.inr ⟨not_le.mp hall, if_neg hall⟩
  · refine Or.inr ⟨hzero, ?_⟩
    rw [Request.bodyToWrite] at hzero
    rw [if_neg hzero]
    cases hres : env.postWrite with
    | again => exact Or.inl ⟨rfl, rfl⟩
    | intr => exact Or.inr (Or.inl ⟨rfl, rfl⟩)
    | error => exact Or.inr (Or.inr (Or.inl ⟨rfl, rfl⟩))
    | accept n => exact Or.inr (Or.inr (Or.inr ⟨n, rfl, rfl⟩))

/-- `read_body` has nothing to read, is blocked by the socket, fails, or reads. -/
lemma readBody_cases (cfg : Config) (env : Env) (c : Conn) :
    (c.req.bodyToRead = 0 ∧ readBody cfg env c = (1, c.setStatus .bodyWrite)) ∨
    (c.req.bodyToRead ≠ 0 ∧
      ((env.sockRead = .again ∧ readBody cfg env c = (-1, c)) ∨
        (c.req.bodyRead env = [] ∧ (readBody cfg env c).1 = 0) ∨
        ∃ bs, env.sockRead = .data bs ∧
          readBody cfg env c = (1, (c.upd fun r => { r.storeAt r.headerEnd (r.bodyRead env) with
            headerEnd := r.headerEnd.add (r.bodyRead env).length }).setStatus .bodyWrite))) := by
  unfold readBody
  dsimp only
  by_cases hzero : c.req.bodyToRead = 0
  · refine Or.inl ⟨hzero, ?_⟩
    rw [Request.bodyToRead] at hzero
    rw [if_pos hzero]
  refine Or.inr ⟨hzero, ?_⟩
  rw [Request.bodyToRead] at hzero
  rw [if_neg hzero]
  cases hres : env.sockRead with
  | again => exact Or.inl ⟨rfl, rfl⟩
  | intr => exact Or.inr (Or.inl ⟨by rw [Request.bodyRead, hres], rfl⟩)
  | error => exact Or.inr (Or.inl ⟨by rw [Request.bodyRead, hres], rfl⟩)
  | data bs =>
      dsimp only
      have hbytes : c.req.bodyRead env = bs.take (min (c.req.filesize - c.req.filepos)
          (bufferSize - (c.req.headerEnd.off - c.req.headerLine.off))) := by
        rw [Request.bodyRead, hres, Request.bodyToRead]
      rw [← hbytes]
      by_cases hempty : c.req.bodyRead env = []
      · rw [if_pos hempty]
        exact Or.inr (Or.inl ⟨hempty, rfl⟩)
      · rw [if_neg hempty]
        exact Or.inr (Or.inr ⟨bs, rfl, rfl⟩)

/-! ### What a visit keeps -/

/-- The body of `n` bytes is on its way: `rest` has come with the header, `read` from
`read_body`, and `written` is in the file. -/
structure BodyState (n : ℕ) (rest read written : Bytes) (r : Request) : Prop where
  size : r.filesize = n
  pos : r.filepos = written.length
  stream : written ++ r.unwritten = (rest ++ read).take n
  room : rest.length + read.length ≤ max rest.length n
  /-- `read_body` runs when everything that has come in is in the file. -/
  phase : r.status = .bodyWrite ∨
    (r.status = .bodyRead ∧ r.headerLine = ⟨.buffer, 0⟩ ∧ r.headerEnd = ⟨.buffer, 0⟩ ∧
      r.filepos < r.filesize)

lemma length_unwritten (r : Request) :
    r.unwritten.length = r.headerEnd.off - r.headerLine.off := by
  rw [Request.unwritten, Request.bytesAt]
  cases r.headerLine.region <;> exact Mem.length_slice _ _ _

section

variable {n : ℕ} {rest read written : Bytes} {r : Request}

namespace BodyState

/-- All the pending bytes belong to the body. -/
lemma bodyToWrite_eq (h : BodyState n rest read written r) :
    r.bodyToWrite = r.unwritten.length := by
  have hlen := congrArg List.length h.stream
  rw [List.length_append, List.length_take] at hlen
  have hpos := h.pos
  have hsize := h.size
  rw [Request.bodyToWrite, length_unwritten]
  rw [length_unwritten] at hlen
  omega

lemma unwritten_eq_nil (h : BodyState n rest read written r) (hzero : r.bodyToWrite = 0) :
    r.unwritten = [] :=
  List.eq_nil_of_length_eq_zero (h.bodyToWrite_eq.symm.trans hzero)

lemma written_prefix (h : BodyState n rest read written r) :
    written <+: (rest ++ read).take n := ⟨r.unwritten, h.stream⟩

/-- The file takes some of the pending bytes. -/
lemma write (h : BodyState n rest read written r) (hstatus : r.status = .bodyWrite) {k : ℕ}
    (hk : k ≤ r.bodyToWrite) :
    BodyState n rest read (written ++ r.unwritten.take k)
      { r with filepos := r.filepos + k, headerLine := r.headerLine.add k } := by
  have hk' : k ≤ r.unwritten.length := h.bodyToWrite_eq ▸ hk
  have hpos := h.pos
  have hleft : Request.unwritten
      { r with filepos := r.filepos + k, headerLine := r.headerLine.add k }
        = r.unwritten.drop k := by
    rw [length_unwritten] at hk'
    have hsub : r.headerEnd.off - (r.headerLine.off + k)
        = r.headerEnd.off - r.headerLine.off - k := by omega
    simp only [Request.unwritten, Request.bytesAt, Ptr.add, hsub]
    cases r.headerLine.region <;> exact (Mem.slice_drop _ _ _ _ hk').symm
  refine ⟨h.size, ?_, ?_, h.room, Or.inl hstatus⟩
  · rw [List.length_append, List.length_take_of_le hk', ← hpos]
  · rw [hleft, List.append_assoc, List.take_append_drop, h.stream]

/-- When nothing is pending and the body is not complete, there is more to read. -/
lemma readNext (h : BodyState n rest read written r) (hzero : r.bodyToWrite = 0)
    (hlt : r.filepos < r.filesize) :
    BodyState n rest read written { r with
      headerLine := ⟨.buffer, 0⟩, headerEnd := ⟨.buffer, 0⟩, status := .bodyRead } := by
  refine ⟨h.size, h.pos, ?_, h.room, Or.inr ⟨rfl, rfl, rfl, hlt⟩⟩
  have hstream := h.stream
  rw [h.unwritten_eq_nil hzero] at hstream
  exact hstream

/-- The body is in the file when nothing is pending and the file is long enough. -/
lemma complete (h : BodyState n rest read written r) (hzero : r.bodyToWrite = 0)
    (hle : r.filesize ≤ r.filepos) :
    written = (rest ++ read).take n ∧ written.length = n := by
  have hstream := h.stream
  rw [h.unwritten_eq_nil hzero, List.append_nil] at hstream
  refine ⟨hstream, ?_⟩
  have hlen := congrArg List.length hstream
  rw [List.length_take] at hlen
  have hpos := h.pos
  have hsize := h.size
  omega

/-- `read_body` reads some more of the body. -/
lemma readMore (h : BodyState n rest read written r) (hstatus : r.status = .bodyRead) {bs : Bytes}
    (hbs : bs.length ≤ r.bodyToRead) :
    BodyState n rest (read ++ bs) written
      { r.storeAt r.headerEnd bs with
        headerEnd := r.headerEnd.add bs.length, status := .bodyWrite } := by
  obtain ⟨size, pos, stream, room, phase⟩ := h
  rcases phase with hwrite | ⟨-, hline, hend, hlt⟩
  · rw [hstatus] at hwrite
    cases hwrite
  have hnone : r.unwritten = [] := by
    apply List.eq_nil_of_length_eq_zero
    rw [length_unwritten, hline, hend, Nat.sub_self]
  have hshort : bs.length ≤ r.filesize - r.filepos := hbs.trans (min_le_left _ _)
  -- everything that has come in so far is in the file
  have hall : written = rest ++ read := by
    rw [hnone, List.append_nil] at stream
    have hlen := congrArg List.length stream
    rw [List.length_take] at hlen
    rw [stream, List.take_of_length_le (by omega)]
  have hlen : written.length = rest.length + read.length := by rw [hall, List.length_append]
  have hpend : Request.unwritten { r.storeAt r.headerEnd bs with
      headerEnd := r.headerEnd.add bs.length, status := .bodyWrite } = bs := by
    rw [hend, Request.storeAt]
    simp only [Request.unwritten, Request.bytesAt, Ptr.add, hline, Nat.zero_add, Nat.sub_zero]
    exact Mem.slice_store_self _ _ _
  have hfields : (r.storeAt r.headerEnd bs).filesize = r.filesize ∧
      (r.storeAt r.headerEnd bs).filepos = r.filepos := by
    rw [hend]
    exact ⟨rfl, rfl⟩
  refine ⟨hfields.1.trans size, hfields.2.trans pos, ?_, ?_, Or.inl rfl⟩
  · rw [hpend, ← List.append_assoc, ← hall, List.take_of_length_le]
    rw [List.length_append]
    omega
  · rw [List.length_append]
    omega

end BodyState

end

/-- The promise about a body, during its delivery and after it. -/
structure Delivering (n : ℕ) (rest : Bytes) (d : Delivery) : Prop where
  body : d.ended = false → BodyState n rest d.read d.written d.conn.req
  stream : d.written <+: (rest ++ d.read).take n
  room : rest.length + d.read.length ≤ max rest.length n
  cgi : d.cgi = true → d.written = (rest ++ d.read).take n ∧ d.written.length = n

lemma Delivering.of_body {n : ℕ} {rest : Bytes} {d : Delivery}
    (h : BodyState n rest d.read d.written d.conn.req) (hcgi : d.cgi = false) :
    Delivering n rest d :=
  ⟨fun _ => h, h.written_prefix, h.room, fun h => by rw [hcgi] at h; cases h⟩

/-- Neither the flush nor `SQUASH_KA` matters to the body. -/
lemma BodyState.congr {n : ℕ} {rest read written : Bytes} {r : Request}
    (h : BodyState n rest read written r) (s e : ℕ) (ka : KaStatus) :
    BodyState n rest read written { r with bufferStart := s, bufferEnd := e, keepalive := ka } :=
  ⟨h.size, h.pos, h.stream, h.room, h.phase⟩

lemma squashIf_req (sigterm : Bool) (c : Conn) : ∃ ka,
    (if sigterm = true then c.squashKa else c).req = { c.req with keepalive := ka } := by
  split_ifs
  · exact ⟨_, rfl⟩
  · exact ⟨_, rfl⟩

lemma BodyState.squash {n : ℕ} {rest read written : Bytes} {c : Conn}
    (h : BodyState n rest read written c.req) (sigterm : Bool) :
    BodyState n rest read written (if sigterm = true then c.squashKa else c).req := by
  obtain ⟨ka, hreq⟩ := squashIf_req sigterm c
  rw [hreq]
  exact h.congr _ _ ka

/-- A visit whose flush succeeds. -/
lemma deliver_of_flush {cfg : Config} {env : Env} {d : Delivery} {c : Conn}
    (hend : d.ended = false) (hflush : flushFirst { d.conn with tape := env.sock } = (1, c)) :
    deliver cfg d env =
      { conn := visit cfg env d.conn
        read := if c.req.status = .bodyRead then d.read ++ c.req.bodyRead env else d.read
        written :=
          if c.req.status = .bodyWrite then d.written ++ c.req.bodyWritten env else d.written
        cgi := c.req.startsCgi
        ended := decide ((handleStatus cfg env c).1 = 0) || c.req.startsCgi } := by
  rw [deliver, hend, processRequest_of_flush hflush, hflush]
  simp

/-- A visit that ends with its flush. -/
lemma deliver_of_no_flush {cfg : Config} {env : Env} {d : Delivery} (hend : d.ended = false)
    (hflush : (flushFirst { d.conn with tape := env.sock }).1 ≠ 1) :
    deliver cfg d env =
      { conn := visit cfg env d.conn
        read := d.read
        written := d.written
        cgi := false
        ended := decide ((processRequest cfg env { d.conn with tape := env.sock }).1 = 0) } := by
  rw [deliver, hend]
  simp [hflush]

/-- A handler that neither ends the request nor starts the script leaves the connection to
the next visit. -/
lemma visit_of_handler {cfg : Config} {env : Env} {c c' d : Conn} {retval : ℤ}
    (hflush : flushFirst { c with tape := env.sock } = (1, d))
    (hhandle : handleStatus cfg env d = (retval, c')) (hret : retval = 1 ∨ retval = -1) :
    visit cfg env c = if env.sigterm = true then c'.squashKa else c' := by
  have hproc : processRequest cfg env { c with tape := env.sock } = _ :=
    processRequest_of_flush hflush
  rw [hhandle] at hproc
  exact visit_of_ret hproc hret

section

variable {cfg : Config} {env : Env} {d : Delivery} {c : Conn} {n : ℕ} {rest : Bytes}

/-- The promise is kept when the handler has kept it. -/
lemma deliver_of_handler (hend : d.ended = false)
    (hflush : flushFirst { d.conn with tape := env.sock } = (1, c)) {c' : Conn} {retval : ℤ}
    (hhandle : handleStatus cfg env c = (retval, c')) (hret : retval = 1 ∨ retval = -1)
    (hcgi : c.req.startsCgi = false) {read written : Bytes}
    (hread : (if c.req.status = .bodyRead then d.read ++ c.req.bodyRead env else d.read) = read)
    (hwritten : (if c.req.status = .bodyWrite then d.written ++ c.req.bodyWritten env
      else d.written) = written)
    (h : BodyState n rest read written c'.req) : Delivering n rest (deliver cfg d env) := by
  rw [deliver_of_flush hend hflush, hread, hwritten, hcgi,
    visit_of_handler hflush hhandle hret]
  exact Delivering.of_body (h.squash env.sigterm) rfl

/-- The promise is kept when the visit gives the body up. -/
lemma deliver_of_end (hend : d.ended = false)
    (hflush : flushFirst { d.conn with tape := env.sock } = (1, c))
    (hhandle : (handleStatus cfg env c).1 = 0) (hcgi : c.req.startsCgi = false)
    (hread : (if c.req.status = .bodyRead then d.read ++ c.req.bodyRead env else d.read)
      = d.read)
    (hwritten : (if c.req.status = .bodyWrite then d.written ++ c.req.bodyWritten env
      else d.written) = d.written)
    (h : BodyState n rest d.read d.written c.req) : Delivering n rest (deliver cfg d env) := by
  rw [deliver_of_flush hend hflush, hread, hwritten, hcgi, hhandle]
  exact ⟨fun h => absurd h (by simp), h.written_prefix, h.room, fun h => absurd h (by simp)⟩

/-- `write_body` keeps the promise. -/
lemma deliver_of_write (hend : d.ended = false)
    (hflush : flushFirst { d.conn with tape := env.sock } = (1, c))
    (hstatus : c.req.status = .bodyWrite) (h : BodyState n rest d.read d.written c.req) :
    Delivering n rest (deliver cfg d env) := by
  have hhandle : handleStatus cfg env c = writeBody cfg env c := by rw [handleStatus, hstatus]
  have hread : (if c.req.status = .bodyRead then d.read ++ c.req.bodyRead env else d.read)
      = d.read := if_neg (by rw [hstatus]; decide)
  have hwritten : (if c.req.status = .bodyWrite then d.written ++ c.req.bodyWritten env
      else d.written) = d.written ++ c.req.bodyWritten env := if_pos hstatus
  rcases writeBody_cases cfg env c with
    ⟨hzero, hcase⟩ | ⟨hsome, hcase⟩
  · have hnone : d.written ++ c.req.bodyWritten env = d.written := by
      rw [Request.bodyWritten, hzero, h.unwritten_eq_nil hzero]
      cases env.postWrite <;> simp
    rcases hcase with ⟨hall, -⟩ | ⟨hmore, heq⟩
    · -- the script is started
      have hcgi : c.req.startsCgi = true := by
        simp [Request.startsCgi, hstatus, hzero, hall]
      rw [deliver_of_flush hend hflush, hread, hwritten, hnone, hcgi, Bool.or_true]
      exact ⟨fun h => absurd h (by simp), h.written_prefix, h.room,
        fun _ => h.complete hzero hall⟩
    · have hcgi : c.req.startsCgi = false := by
        simp [Request.startsCgi, hmore]
      exact deliver_of_handler hend hflush (hhandle.trans heq) (Or.inl rfl) hcgi hread
        (hwritten.trans hnone) (h.readNext hzero hmore)
  · have hcgi : c.req.startsCgi = false := by
      simp [Request.startsCgi, hsome]
    rcases hcase with ⟨hres, heq⟩ | ⟨hres, heq⟩ | ⟨hres, heq⟩ | ⟨k, hres, heq⟩
    · have hnone : d.written ++ c.req.bodyWritten env = d.written := by
        rw [Request.bodyWritten, hres, List.append_nil]
      exact deliver_of_handler hend hflush (hhandle.trans heq) (Or.inr rfl) hcgi hread
        (hwritten.trans hnone) h
    · have hnone : d.written ++ c.req.bodyWritten env = d.written := by
        rw [Request.bodyWritten, hres, List.append_nil]
      exact deliver_of_handler hend hflush (hhandle.trans heq) (Or.inl rfl) hcgi hread
        (hwritten.trans hnone) h
    · have hnone : d.written ++ c.req.bodyWritten env = d.written := by
        rw [Request.bodyWritten, hres, List.append_nil]
      have hzero : (handleStatus cfg env c).1 = 0 := by rw [hhandle, heq]
      exact deliver_of_end hend hflush hzero hcgi hread (hwritten.trans hnone) h
    · have hsent : d.written ++ c.req.bodyWritten env
          = d.written ++ c.req.unwritten.take (min k c.req.bodyToWrite) := by
        rw [Request.bodyWritten, hres]
      exact deliver_of_handler hend hflush (hhandle.trans heq) (Or.inl rfl) hcgi hread
        (hwritten.trans hsent) (h.write hstatus (min_le_right _ _))

/-- `read_body` keeps the promise. -/
lemma deliver_of_read (hend : d.ended = false)
    (hflush : flushFirst { d.conn with tape := env.sock } = (1, c))
    (hstatus : c.req.status = .bodyRead) (h : BodyState n rest d.read d.written c.req) :
    Delivering n rest (deliver cfg d env) := by
  have hhandle : handleStatus cfg env c = readBody cfg env c := by rw [handleStatus, hstatus]
  have hread : (if c.req.status = .bodyRead then d.read ++ c.req.bodyRead env else d.read)
      = d.read ++ c.req.bodyRead env := if_pos hstatus
  have hwritten : (if c.req.status = .bodyWrite then d.written ++ c.req.bodyWritten env
      else d.written) = d.written := if_neg (by rw [hstatus]; decide)
  have hcgi : c.req.startsCgi = false := by simp [Request.startsCgi, hstatus]
  have hlen : (c.req.bodyRead env).length ≤ c.req.bodyToRead := by
    rw [Request.bodyRead]
    cases env.sockRead <;> simp
  rcases readBody_cases cfg env c with
    ⟨hzero, heq⟩ | ⟨-, ⟨hres, heq⟩ | ⟨hnone, heq⟩ | ⟨bs, hres, heq⟩⟩
  · have hnone : c.req.bodyRead env = [] :=
      List.eq_nil_of_length_eq_zero (Nat.le_zero.mp (hzero ▸ hlen))
    refine deliver_of_handler hend hflush (hhandle.trans heq) (Or.inl rfl) hcgi hread hwritten ?_
    rw [hnone, List.append_nil]
    exact ⟨h.size, h.pos, h.stream, h.room, Or.inl rfl⟩
  · have hnone : d.read ++ c.req.bodyRead env = d.read := by
      rw [Request.bodyRead, hres, List.append_nil]
    exact deliver_of_handler hend hflush (hhandle.trans heq) (Or.inr rfl) hcgi
      (hread.trans hnone) hwritten h
  · have hzero : (handleStatus cfg env c).1 = 0 := by rw [hhandle, heq]
    refine deliver_of_end hend hflush hzero hcgi (hread.trans ?_) hwritten h
    rw [hnone, List.append_nil]
  · exact deliver_of_handler hend hflush (hhandle.trans heq) (Or.inl rfl) hcgi hread hwritten
      (h.readMore hstatus hlen)

/-- One visit keeps the promise. -/
lemma deliver_delivering (h : Delivering n rest d) : Delivering n rest (deliver cfg d env) := by
  by_cases hend : d.ended = true
  · rw [deliver, if_pos hend]
    exact h
  rw [Bool.not_eq_true] at hend
  have hbody := h.body hend
  rcases flushFirst_cases { d.conn with tape := env.sock } with
    ⟨hfail, -⟩ | ⟨t, -, -, -, hflush⟩ | ⟨t, es, s, e, hflush, -⟩
  · -- the flush has failed, and the request ends
    have hne : (flushFirst { d.conn with tape := env.sock }).1 ≠ 1 := by
      rw [hfail]
      decide
    have hret : (processRequest cfg env { d.conn with tape := env.sock }).1 = 0 := by
      rw [processRequest, if_neg hne]
      exact hfail
    rw [deliver_of_no_flush hend hne, hret]
    exact ⟨fun h => absurd h (by simp), h.stream, h.room, fun h => absurd h (by simp)⟩
  · have hne : (flushFirst { d.conn with tape := env.sock }).1 ≠ 1 := by
      rw [hflush]
      exact (by decide : (-1 : ℤ) ≠ 1)
    have hbody' : BodyState n rest d.read d.written
        (({ d.conn with tape := env.sock } : Conn).setTape t).req := hbody
    have hproc : processRequest cfg env { d.conn with tape := env.sock } = _ :=
      processRequest_of_blocked hflush
    rw [deliver_of_no_flush hend hne, visit_of_ret hproc (Or.inr rfl)]
    exact Delivering.of_body (hbody'.squash env.sigterm) rfl
  · have hbody' : BodyState n rest d.read d.written
        (({ d.conn with tape := env.sock } : Conn).cursors t es s e).req := hbody.congr s e _
    rcases hbody.phase with hstatus | ⟨hstatus, -⟩
    · exact deliver_of_write hend hflush hstatus hbody'
    · exact deliver_of_read hend hflush hstatus hbody'

/-- All the visits keep the promise. -/
lemma delivers_delivering (h : Delivering n rest d) (envs : List Env) :
    Delivering n rest (Run.runs (deliver cfg) d envs) := by
  induction envs generalizing d with
  | nil => exact h
  | cons env envs ih => exact ih (deliver_delivering h)

end

/-! ### The whole delivery -/

/-- `read_header` accepts a `POST`: at the blank line, `process_header_end` lets it go on and
leaves `e`, and the length of its body is in order. -/
structure PostAccepted (cfg : Config) (env : Env) (c e c' : Conn) : Prop where
  header : ∃ d retval,
    readHeaderLoop cfg env (c.req.clientStreamPos - c.req.parsePos) c = .blankLine d ∧
      processHeaderEnd cfg env d = (retval, e) ∧ retval ≠ 0
  method : e.req.method = .post
  post : headerPost cfg env e = (1, c')

lemma PostAccepted.readHeader_eq {cfg : Config} {env : Env} {c e c' : Conn}
    (h : PostAccepted cfg env c e c') : readHeader cfg env c = (1, c') := by
  obtain ⟨d, retval, hloop, hend, hret⟩ := h.header
  rw [readHeader, hloop]
  dsimp only
  rw [headerBlankLine, hend]
  dsimp only
  rw [if_pos ⟨hret, h.method⟩, h.post]

/-- The bytes behind the header that have come with it. -/
def Request.restOfStream (r : Request) : Bytes :=
  r.clientStream.slice r.parsePos (r.clientStreamPos - r.parsePos)

/-- The request that `read_header` hands over to `write_body`. -/
def Request.posting (n : ℕ) (r : Request) : Request :=
  { r with
    headerLine := ⟨.clientStream, r.parsePos⟩
    headerEnd :=
      if n < r.clientStreamPos - r.parsePos then ⟨.clientStream, r.parsePos + n⟩
      else ⟨.clientStream, r.clientStreamPos⟩ }

/-- Bytes behind the body are left where they are. -/
lemma posting_unwritten (r : Request) (n : ℕ) :
    [] ++ (r.posting n).unwritten = (r.restOfStream ++ []).take n := by
  rw [List.nil_append, List.append_nil, Request.restOfStream]
  simp only [Request.posting, Request.unwritten, Request.bytesAt]
  by_cases hmore : n < r.clientStreamPos - r.parsePos
  · rw [if_pos hmore, Mem.slice_take _ _ _ _ hmore.le]
    dsimp only
    rw [Nat.add_sub_cancel_left]
  · rw [if_neg hmore, List.take_of_length_le]
    rw [Mem.length_slice]
    exact not_lt.mp hmore

/-- Where `read_header` accepts a body: its length, and the first bytes of it. -/
lemma headerPost_accepted {cfg : Config} {env : Env} {e c' : Conn}
    (h : headerPost cfg env e = (1, c')) : ∃ off n : ℕ,
      e.req.contentLength = some off ∧ boaAtoi (e.req.streamString off) = n ∧
      (cfg.singlePostLimit ≠ 0 → (n : ℤ) ≤ cfg.singlePostLimit) ∧
      BodyState n e.req.restOfStream [] [] c'.req := by
  unfold headerPost at h
  dsimp only at h
  cases hlen : e.req.contentLength with
  | none =>
      simp only [Conn.upd_req, hlen, Prod.mk.injEq] at h
      exact absurd h.1 (by decide)
  | some off =>
      simp only [Conn.upd_req, hlen] at h
      change (if boaAtoi (e.req.streamString off) < 0 then _ else _) = _ at h
      by_cases hneg : boaAtoi (e.req.streamString off) < 0
      · rw [if_pos hneg, Prod.mk.injEq] at h
        exact absurd h.1 (by decide)
      rw [if_neg hneg] at h
      change (if cfg.singlePostLimit ≠ 0 ∧
        cfg.singlePostLimit < boaAtoi (e.req.streamString off) then _ else _) = _ at h
      by_cases hlimit : cfg.singlePostLimit ≠ 0 ∧
          cfg.singlePostLimit < boaAtoi (e.req.streamString off)
      · rw [if_pos hlimit, Prod.mk.injEq] at h
        exact absurd h.1 (by decide)
      rw [if_neg hlimit, Prod.mk.injEq] at h
      obtain ⟨-, rfl⟩ := h
      refine ⟨off, (boaAtoi (e.req.streamString off)).toNat, rfl,
        (Int.toNat_of_nonneg (not_lt.mp hneg)).symm, fun hne => ?_, ?_⟩
      · rw [Int.toNat_of_nonneg (not_lt.mp hneg)]
        exact not_lt.mp fun h => hlimit ⟨hne, h⟩
      · refine ⟨rfl, rfl, ?_, le_max_left _ _, Or.inl rfl⟩
        exact posting_unwritten e.req (boaAtoi (e.req.streamString off)).toNat

/-- What is pending in a delivery. -/
def Delivery.pending (d : Delivery) : Bytes := if d.ended then [] else d.conn.req.unwritten

/-- A server with scripts by their extension. -/
def postServer : Config where
  documentRoot := some (str "/w")
  mimeTypes := [(str "cgi", cgiMimeType)]

/-- A request whose header has come with the first two bytes of its body. -/
def postRequest : Conn where
  req := { fd := 4
           clientStream := Mem.store (fun _ => 0) 0
             (str "POST /x.cgi HTTP/1.0\r\nContent-Length: 3\r\n\r\nab")
           clientStreamPos := 45 }

/-- What `mkstemp` answers. -/
def postEnv : Env := { mkstemp := some 5 }

/-- The state in which the loop of `read_header` ends. -/
def HeaderStep.conn : HeaderStep → Conn
  | .more c | .ret _ c | .loglineEnd c | .blankLine c => c

/-- The loop of `read_header` ends at the blank line. -/
def HeaderStep.isBlankLine : HeaderStep → Bool
  | .blankLine _ => true
  | _ => false

lemma HeaderStep.eq_blankLine {res : HeaderStep} (h : res.isBlankLine = true) :
    res = .blankLine res.conn := by
  cases res with
  | blankLine c => rfl
  | _ => cases h

lemma eq_mk_snd {α β : Type*} {p : α × β} {a : α} (h : p.1 = a) : p = (a, p.2) := by
  rw [← h]

/-- The request behind `process_header_end`. -/
def postEnded : ℤ × Conn :=
  processHeaderEnd postServer postEnv (readHeaderLoop postServer postEnv 45 postRequest).conn

/-- The request behind `read_header`. -/
def postHanded : ℤ × Conn := headerPost postServer postEnv postEnded.2

/-- The file takes the first byte and then the second one, `read_body` gets the third one,
and the file takes it. -/
def postVisits : List Env :=
  [{ postWrite := .accept 1 }, { postWrite := .again }, { postWrite := .accept 9 }, {},
    { sockRead := .data (str "cd") }, { postWrite := .accept 9 }, {}]

end Yabwf
