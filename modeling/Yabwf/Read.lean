import Yabwf.Request

/-!
`read.c`: the header of a request, byte by byte, and the body of a `POST`.

* `readHeader`: the state machine over the bytes at hand, and a `read` when they are
  used up.
* `readBody`, `writeBody`: the body goes through the buffer to a file, and then to a
  script.
-/

namespace Yabwf

open Memory

/-- The transitions of `read_header` on a byte. -/
def headerStatus (s : ReqStatus) (uc : UInt8) : ReqStatus :=
  match s with
  | .readHeader => if uc = 13 then .oneCr else if uc = 10 then .oneLf else .readHeader
  | .oneCr => if uc = 10 then .oneLf else if uc ≠ 13 then .readHeader else .oneCr
  | .oneLf => if uc = 13 then .twoCr else if uc = 10 then .bodyRead else .readHeader
  | .twoCr => if uc = 10 then .bodyRead else if uc ≠ 13 then .readHeader else .twoCr
  | s => s

/-- A byte that `read_header` refuses. -/
def illegalByte (uc : UInt8) : Bool :=
  uc != 13 && uc != 10 && uc != 9 && (uc < 32 || 127 < uc)

/-- How the loop of `read_header` goes on: with the next byte, with a return value, or
with `process_header_end`, which is called behind an `HTTP/0.9` request line and behind
the blank line. Either call is the last thing that the loop does. -/
inductive HeaderStep
  | more (c : Conn)
  | ret (value : ℤ) (c : Conn)
  | loglineEnd (c : Conn)
  | blankLine (c : Conn)

/-- `header_line = check`. -/
def nextLine (c : Conn) : Conn :=
  c.upd fun r => { r with headerLine := ⟨.clientStream, r.parsePos⟩ }

/-- `read_header` at the end of a line. -/
def headerLineEnd (cfg : Config) (env : Env) (c : Conn) : HeaderStep :=
  let c := c.upd fun r => { r with clientStream := r.clientStream.store r.headerEnd.off [0] }
  if maxHeaderLength ≤ c.req.headerEnd.off - c.req.headerLine.off then
    .ret 0 (sendRBadRequest cfg env c)
  else if c.req.logline then
    match processOptionLine cfg env c with
    | (false, c) => .ret 0 c
    | (true, c) => .more (nextLine c)
  else
    match processLogline cfg env c with
    | (false, c) => .ret 0 c
    | (true, c) => if c.req.httpVersion = .http09 then .loglineEnd c else .more (nextLine c)

/-- One round of the loop in `read_header`. -/
def headerByte (cfg : Config) (env : Env) (c : Conn) : HeaderStep :=
  let uc := c.req.clientStream c.req.parsePos
  if illegalByte uc then .ret 0 (sendRBadRequest cfg env c)
  else
    let c := c.upd fun r => { r with
      status := headerStatus r.status uc
      headerEnd :=
        if r.status = .readHeader ∧ (uc = 13 ∨ uc = 10) then ⟨.clientStream, r.parsePos⟩
        else r.headerEnd
      parsePos := r.parsePos + 1 }
    if c.req.status = .oneLf then headerLineEnd cfg env c
    else if c.req.status = .bodyRead then .blankLine c
    else .more c

/-- The loop of `read_header`, over the number of bytes at hand. -/
def readHeaderLoop (cfg : Config) (env : Env) : ℕ → Conn → HeaderStep
  | 0, c => .more c
  | n + 1, c =>
      match headerByte cfg env c with
      | .more c => readHeaderLoop cfg env n c
      | res => res

/-- `read_header` behind `process_header_end` for a `POST` that may go on. -/
def headerPost (cfg : Config) (env : Env) (c : Conn) : ℤ × Conn :=
  let c := c.upd fun r => { r with
    headerLine := ⟨.clientStream, r.parsePos⟩
    headerEnd := ⟨.clientStream, r.clientStreamPos⟩
    status := .bodyWrite }
  match c.req.contentLength with
  | none => (0, sendRBadRequest cfg env c)
  | some off =>
      let contentLength := boaAtoi (c.req.streamString off)
      if contentLength < 0 then (0, sendRBadRequest cfg env c)
      else if cfg.singlePostLimit ≠ 0 ∧ cfg.singlePostLimit < contentLength then
        (0, sendRBadRequest cfg env c)
      else
        let filesize := contentLength.toNat
        (1, c.upd fun r => { r with
          filesize := filesize
          filepos := 0
          headerEnd :=
            if filesize < r.headerEnd.off - r.headerLine.off then r.headerLine.add filesize
            else r.headerEnd })

/-- `read_header` at the blank line. -/
def headerBlankLine (cfg : Config) (env : Env) (c : Conn) : ℤ × Conn :=
  match processHeaderEnd cfg env c with
  | (retval, c) =>
      if retval ≠ 0 ∧ c.req.method = .post then headerPost cfg env c else (retval, c)

/-- The `read` of `read_header`. -/
def readHeaderMore (env : Env) (c : Conn) : ℤ × Conn :=
  let left := clientStreamSize - c.req.clientStreamPos
  if left < 1 then (0, (c.setResponse 400).die)
  else
    match env.sockRead with
    | .intr => (1, c)
    | .again => (-1, c)
    | .error => (0, c.setResponse 400)
    | .data bs =>
        let bs := bs.take left
        if bs = [] then (0, c.setResponse 400)
        else
          (1, c.upd fun r => { r with
            clientStream := r.clientStream.store r.clientStreamPos bs
            clientStreamPos := r.clientStreamPos + bs.length })

/-- `read_header`. -/
def readHeader (cfg : Config) (env : Env) (c : Conn) : ℤ × Conn :=
  match readHeaderLoop cfg env (c.req.clientStreamPos - c.req.parsePos) c with
  | .ret value c => (value, c)
  | .loglineEnd c => processHeaderEnd cfg env c
  | .blankLine c => headerBlankLine cfg env c
  | .more c =>
      if c.req.status.code < ReqStatus.bodyRead.code then readHeaderMore env c else (1, c)

/-- Storing at a pointer of the request. -/
def Request.storeAt (r : Request) (p : Ptr) (bs : Bytes) : Request :=
  match p.region with
  | .clientStream => { r with clientStream := r.clientStream.store p.off bs }
  | .buffer => { r with buffer := r.buffer.store p.off bs }

/-- `read_body`. -/
def readBody (cfg : Config) (env : Env) (c : Conn) : ℤ × Conn :=
  let bytesFree := bufferSize - (c.req.headerEnd.off - c.req.headerLine.off)
  let bytesToRead := min (c.req.filesize - c.req.filepos) bytesFree
  if bytesToRead = 0 then (1, c.setStatus .bodyWrite)
  else
    match env.sockRead with
    | .again => (-1, c)
    | .intr | .error => (0, (boaPerror cfg env c).setResponse 400)
    | .data bs =>
        let bs := bs.take bytesToRead
        if bs = [] then (0, sendRBadRequest cfg env c)
        else
          (1, (c.upd fun r => { r.storeAt r.headerEnd bs with
            headerEnd := r.headerEnd.add bs.length }).setStatus .bodyWrite)

/-- `write_body`. -/
def writeBody (cfg : Config) (env : Env) (c : Conn) : ℤ × Conn :=
  let bytesToWrite :=
    min (c.req.headerEnd.off - c.req.headerLine.off) (c.req.filesize - c.req.filepos)
  if bytesToWrite = 0 then
    let c := c.upd fun r => { r with headerLine := ⟨.buffer, 0⟩, headerEnd := ⟨.buffer, 0⟩ }
    if c.req.filesize ≤ c.req.filepos then initCgi cfg env c
    else (1, c.setStatus .bodyRead)
  else
    match env.postWrite with
    | .again => (-1, c)
    | .intr => (1, c)
    | .error => (0, boaPerror cfg env c)
    | .accept n =>
        let n := min n bytesToWrite
        (1, c.upd fun r => { r with
          filepos := r.filepos + n
          headerLine := r.headerLine.add n })

end Yabwf
