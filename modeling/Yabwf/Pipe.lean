import Mathlib.Data.List.DropRight
import Yabwf.Get

/-!
`pipe.c` and `cgi_header.c`: the output of a script or a listing, and large files.

* `processCgiHeader`: turns the header of a script into the header of the response, in
  the build without `CGI_STRIP_PREFIX`.
* `readFromPipe`, `writeFromPipe`: move the output of a child through the second half
  of the buffer, or through all of it, to the socket.
* `ioShuffleSendfile`, `ioShuffle`: send an open file with or without `sendfile`.
-/

namespace Yabwf

open Memory

/-! ### `cgi_header.c` -/

/-- The string at an offset of the buffer; the array and the byte behind it are read. -/
def Request.bufferString (r : Request) (off : ℕ) : Bytes :=
  r.buffer.cstr off (bufferSize + 2 - off)

/-- The blank line that ends a header, as the offset of the line feed in front of it. -/
def findBlankLine (s : Bytes) : Option ℕ :=
  (strstr (str "\n\r\n") s).orElse fun _ => strstr (str "\n\n") s

/-- The offset behind the line feed at `k`, and behind a carriage return there. -/
def behindLine (r : Request) (k : ℕ) : ℕ := if r.buffer (k + 1) = 13 then k + 2 else k + 1

/-- Skipping line ends up to `header_end`. -/
def skipLineEnds (m : Mem) (stop : ℕ) : ℕ → ℕ → ℕ
  | 0, i => i
  | fuel + 1, i =>
      if (m i = 10 ∨ m i = 13) ∧ i < stop then skipLineEnds m stop fuel (i + 1) else i

/-- The answer to a `Location` header at the offset `buf`. -/
def cgiLocation (cfg : Config) (env : Env) (buf : ℕ) (c : Conn) : Conn :=
  let value := c.req.bufferString (buf + 10)
  if value.head? = some 47 then sendRBadRequest cfg env c
  else if hasPrefixCase (str "http://") value ∨ hasPrefixCase (str "https://") value then
    let stop := buf + 10 + ((value.takeWhile (· != 10)).rdropWhile (· == 13)).length
    let c := c.upd fun r => { r with buffer := r.buffer.store stop [0] }
    let next := skipLineEnds c.req.buffer c.req.headerEnd.off (bufferSize + 2) (stop + 1)
    sendRMovedTemp cfg env (.inBuffer (buf + 10))
      (fun r => if next = r.headerEnd.off then [] else r.bufferString next) c
  else sendRBadRequest cfg env c

/-- The header of a script that names neither a status nor a location: the data is moved
behind the header of the server. -/
def cgiMerge (cfg : Config) (env : Env) (blank : ℕ) (c : Conn) : ℤ × Conn :=
  let c := sendRRequestOk cfg env c
  let c :=
    if c.req.method = .head then
      c.upd fun r => { r with
        headerEnd := ⟨.buffer, behindLine r blank⟩
        cgiStatus := .done }
    else c
  let howmuch := c.req.headerEnd.off - c.req.headerLine.off
  if bufferSize < c.req.bufferEnd + howmuch then
    (0, sendRError cfg env
      ((c.upd fun r => { r with bufferStart := 0, bufferEnd := 0 }).emit .dropped))
  else
    let c := (c.append (c.req.buffer.slice c.req.headerLine.off howmuch)).upd fun r =>
      { r with
        headerLine := ⟨.buffer, r.bufferEnd⟩
        headerEnd := ⟨.buffer, r.bufferEnd⟩ }
    let c := (reqFlush c).2
    (if c.req.method = .head then 0 else 1, c)

/-- `process_cgi_header`. -/
def processCgiHeader (cfg : Config) (env : Env) (c : Conn) : ℤ × Conn :=
  let c := c.upd fun r => { r with
    cgiStatus := if r.cgiStatus = .done then .done else .buffer }
  let buf := c.req.headerLine.off
  match findBlankLine (c.req.bufferString buf) with
  | none => (0, sendRBadGateway cfg env c)
  | some k =>
      if c.req.httpVersion = .http09 then
        (1, c.upd fun r => { r with headerLine := ⟨.buffer, behindLine r (buf + k)⟩ })
      else if hasPrefixCase (str "Status: ") (c.req.bufferString buf) then
        (1, c.upd fun r => { r with
          headerLine := ⟨.buffer, buf - 1⟩
          buffer := r.buffer.store (buf - 1) (str "HTTP/1.0 ") })
      else if hasPrefixCase (str "Location: ") (c.req.bufferString buf) then
        (1, (cgiLocation cfg env buf c).setStatus .done)
      else cgiMerge cfg env (buf + k) c

/-! ### `pipe.c` -/

/-- `header_end = header_line = buffer`. -/
def Conn.rewind (c : Conn) : Conn :=
  c.upd fun r => { r with headerLine := ⟨.buffer, 0⟩, headerEnd := ⟨.buffer, 0⟩ }

/-- `write_from_pipe`. -/
def writeFromPipe (c : Conn) : ℤ × Conn :=
  let bytesToWrite := c.req.headerEnd.off - c.req.headerLine.off
  if bytesToWrite = 0 then
    if c.req.cgiStatus = .done then (0, c) else (1, (c.setStatus .pipeRead).rewind)
  else
    match c.pop with
    | (.again, c) => (-1, c)
    | (.intr, c) => (1, c)
    | (.error, c) => (0, c.die)
    | (.accept n, c) =>
        let n := min n bytesToWrite
        let c := c.emit (.wrote c.req.bufferStart c.req.bufferEnd
          (c.req.buffer.slice c.req.headerLine.off n))
        let c := c.upd fun r => { r with
          headerLine := r.headerLine.add n
          bytesWritten := r.bytesWritten + n }
        if n = bytesToWrite then (1, (c.setStatus .pipeRead).rewind) else (1, c)

/-- `read_from_pipe`. -/
def readFromPipe (cfg : Config) (env : Env) (c : Conn) : ℤ × Conn :=
  let off := c.req.headerEnd.off
  let bytesToRead := bufferSize + 1 - off
  let terminate (c : Conn) : Conn :=
    c.upd fun r => { r with buffer := r.buffer.store r.headerEnd.off [0] }
  if bytesToRead = 0 then
    if c.req.cgiStatus = .parse then
      processCgiHeader cfg env (terminate (c.upd fun r => { r with cgiStatus := .buffer }))
    else (1, c.setStatus .pipeWrite)
  else
    match env.pipeRead with
    | .intr => (1, c)
    | .again => (-1, c)
    | .error => (0, c.die)
    | .data bs =>
        let bs := bs.take bytesToRead
        let c := c.upd fun r => { r with buffer := r.buffer.store off (bs ++ [0]) }
        if bs = [] then
          let c := c.setStatus .pipeWrite
          let parse := c.req.cgiStatus = .parse
          let c := c.upd fun r => { r with cgiStatus := .done }
          if parse then processCgiHeader cfg env c else (1, c)
        else
          let c := c.upd fun r => { r with headerEnd := r.headerEnd.add bs.length }
          if c.req.cgiStatus ≠ .parse then writeFromPipe c
          else if findBlankLine (c.req.bufferString c.req.headerLine.off) = none then (1, c)
          else
            processCgiHeader cfg env (terminate (c.upd fun r => { r with cgiStatus := .done }))

/-- Popping answers of the socket until one is no interruption. -/
def popRestart : List WriteResult → WriteResult × List WriteResult
  | [] => (.again, [])
  | .intr :: t => popRestart t
  | r :: t => (r, t)

/-- `io_shuffle_sendfile`. -/
def ioShuffleSendfile (cfg : Config) (c : Conn) : ℤ × Conn :=
  if c.req.method = .head then completeResponse cfg c
  else
    let bytesToWrite := min c.req.rangeLength cfg.systemBufsize
    let start := (c.req.ranges.headD ⟨0, 0⟩).start
    let finish (c : Conn) : ℤ × Conn :=
      let range := c.req.ranges.headD ⟨0, 0⟩
      if (range.stop + 1) % 2 ^ 64 ≤ range.start then completeResponse cfg c else (1, c)
    if bytesToWrite = 0 then finish c
    else if 2 ^ 63 ≤ start then (0, c.die)
    else
      let answer := popRestart c.tape
      let c := { c with tape := answer.2 }
      match answer.1 with
      | .again => (-1, c)
      | .intr | .error => (0, c.die)
      | .accept n =>
          let n := min n bytesToWrite
          if n = 0 then (-1, c)
          else
            let c := c.emit (.wrote c.req.bufferStart c.req.bufferEnd
              (c.req.dataFile.slice start n))
            finish (c.upd fun r => { r.advance n with bytesWritten := r.bytesWritten + n })

/-- The second half of `io_shuffle`: writing what is in the buffer. -/
def ioShuffleWrite (c : Conn) : ℤ × Conn :=
  let bytesToWrite := c.req.bufferEnd - c.req.bufferStart
  if bytesToWrite = 0 then
    if c.req.dataFd = 0 then (0, c)
    else (1, c.upd fun r => { r with bufferStart := 0, bufferEnd := 0 })
  else
    let answer := popRestart c.tape
    let c := { c with tape := answer.2 }
    match answer.1 with
    | .again => (-1, c)
    | .intr | .error => (0, c.die)
    | .accept n =>
        let n := min n bytesToWrite
        let c := c.emit (.flushed (c.req.buffer.slice c.req.bufferStart n))
        let c := c.upd fun r => { r with
          bufferStart := r.bufferStart + n
          bytesWritten := r.bytesWritten + n }
        if n = bytesToWrite then
          (1, c.upd fun r => { r with bufferStart := 0, bufferEnd := 0 })
        else (1, c)

/-- `io_shuffle`. -/
def ioShuffle (cfg : Config) (env : Env) (c : Conn) : ℤ × Conn :=
  if c.req.method = .head then completeResponse cfg c
  else
    let bytesToRead : ℤ :=
      min ((bufferSize : ℤ) - c.req.bufferEnd - 256) (toSigned 32 c.req.rangeLength)
    if 0 < bytesToRead ∧ c.req.dataFd ≠ 0 then
      if !env.lseekOk then (0, c.die)
      else
        match env.fileRead with
        | .again | .intr =>
            if c.req.bufferEnd - c.req.bufferStart = 0 then (-1, c) else ioShuffleWrite c
        | .error => (0, c.die)
        | .accept n =>
            let n := min n bytesToRead.toNat
            if n = 0 then
              ioShuffleWrite ((c.emit (.closed c.req.dataFd)).upd fun r =>
                { r with dataFd := 0 })
            else
              let start := (c.req.ranges.headD ⟨0, 0⟩).start
              let c := (c.append (c.req.dataFile.slice start n)).upd fun r => r.advance n
              if c.req.rangeLength = 0 then completeResponse cfg c else ioShuffleWrite c
    else ioShuffleWrite c

end Yabwf
