import Yabwf.Output

/-!
What the handlers of `process_requests` can do, function by function.

* `fillBuffer_cases`, `processGet_cases`, `ioShuffleSendfile_cases`, `ioShuffleWrite_cases`,
  `ioShuffle_cases`: the ways in which these functions end, with the answer of the kernel
  that leads there.
* `writeFromPipe_cases`, `readFromPipe_cases`: the same for the output of a script.
-/

namespace Yabwf

open Memory

/-- The bytes of a file are sent or queued. -/
def Conn.sent (n : ℕ) (c : Conn) : Conn :=
  c.upd fun r => { r.advance n with bytesWritten := r.bytesWritten + n }

/-- The first byte of the file that is to be sent. -/
def Request.rangeStart (r : Request) : ℕ := (r.ranges.headD ⟨0, 0⟩).start

/-- The answers of the socket that are left. -/
def Conn.setTape (t : List WriteResult) (c : Conn) : Conn := { c with tape := t }

lemma pop_setTape {c d : Conn} {res : WriteResult} (h : c.pop = (res, d)) :
    ∃ t, d = c.setTape t := by
  obtain ⟨t, ht⟩ := pop_eq c
  rw [h] at ht
  exact ⟨t, ht⟩

/-! ### Documents -/

/-- `init_get` copies nothing, answers a fault with a page, or copies what fits. -/
lemma fillBuffer_cases (cfg : Config) (env : Env) (c : Conn) :
    fillBuffer cfg env c = (1, c) ∨
    fillBuffer cfg env c = (0, sendRError cfg env (resetOutputBuffer c)) ∨
    ∃ bs : Bytes, bs.length ≤ c.req.rangeLength % 2 ^ 32 ∧
      c.req.bufferEnd + bs.length ≤ bufferSize ∧
      (fillBuffer cfg env c = completeResponse cfg ((c.append bs).sent bs.length) ∨
        fillBuffer cfg env c = (1, (c.append bs).sent bs.length)) := by
  unfold fillBuffer
  cases c.req.dataMem with
  | none => exact Or.inl rfl
  | some mem =>
      dsimp only
      split_ifs with hfree hbus hall
      · exact Or.inl rfl
      · exact Or.inr (Or.inl rfl)
      · refine Or.inr (Or.inr ⟨mem.slice c.req.rangeStart
          (min (bufferSize - c.req.bufferEnd) (c.req.rangeLength % 2 ^ 32)), ?_, ?_, ?_⟩)
        · rw [Mem.length_slice]
          exact min_le_right _ _
        · rw [Mem.length_slice]
          omega
        · rw [Mem.length_slice]
          exact Or.inl rfl
      · refine Or.inr (Or.inr ⟨mem.slice c.req.rangeStart
          (min (bufferSize - c.req.bufferEnd) (c.req.rangeLength % 2 ^ 32)), ?_, ?_, ?_⟩)
        · rw [Mem.length_slice]
          exact min_le_right _ _
        · rw [Mem.length_slice]
          omega
        · rw [Mem.length_slice]
          exact Or.inr rfl

/-- `get_dir` has found a file: it is open, and a stale listing may have been opened and closed
before. -/
def Conn.found (stale : Option ℕ) (fd : ℕ) (uri : Bytes) (size : ℕ) (c : Conn) : Conn :=
  { c with
    req := { c.req with requestUri := uri, filesize := size }
    trace := c.trace ++ (stale.elim [] fun old => [.opened old, .closed old]) ++ [.opened fd] }

lemma indexDirectory_eq_true {cfg : Config} {env : Env} {c d : Conn}
    (h : indexDirectory cfg env c = (true, d)) :
    d = c.upd fun r => { r with filesize := env.listingBytes } := by
  unfold indexDirectory at h
  cases hdir : env.chdir with
  | denied => rw [hdir] at h; cases h
  | other => rw [hdir] at h; cases h
  | ok =>
      rw [hdir] at h
      dsimp only at h
      split_ifs at h
      · cases h
      · cases h
      · exact (Prod.mk.inj h).2.symm

section

variable {P : Conn → Prop} {Q : DirResult × Conn → Prop} {cfg : Config} {env : Env}

/-- What holds behind `get_cachedir_file`, when each of its steps keeps an invariant. -/
lemma getCachedirFile_invariant (opened : ∀ {d : Conn} fd, P d → P (d.emit (.opened fd)))
    (closed : ∀ {d : Conn} fd, P d → P (d.emit (.closed fd)))
    (index : ∀ {d : Conn}, P d → P (indexDirectory cfg env d).2)
    (found : ∀ {d : Conn} fd st contents path, P d → Q (.file fd st contents path,
      d.upd fun r => { r with requestUri := cfg.directoryIndex.getD [] }))
    (failed : ∀ {d : Conn}, P d → Q (.ret (-1), d))
    (perror : ∀ {d : Conn}, P d → Q (.ret (-1), boaPerror cfg env d))
    (cachedir : Bytes) (st : Stat) {c : Conn} (hc : P c) :
    Q (getCachedirFile cfg env cachedir st c) := by
  unfold getCachedirFile
  extract_lets path hit make
  have hmake {d : Conn} (hd : P d) : Q (make d) := by
    have hindex := index hd
    dsimp only [make]
    generalize indexDirectory cfg env d = res at hindex ⊢
    obtain ⟨ret, e⟩ := res
    cases ret with
    | false => exact failed hindex
    | true =>
        cases env.reopenCache with
        | ok fd st' contents => exact found _ _ _ _ (opened fd hindex)
        | _ => exact perror hindex
  clear_value make
  cases env.openFile path with
  | ok fd st' contents =>
      dsimp only
      split_ifs
      · exact found _ _ _ _ (opened fd hc)
      · exact hmake (closed fd (opened fd hc))
  | _ => exact hmake hc

end

lemma getCachedirFile_eq_file {cfg : Config} {env : Env} {cachedir : Bytes} {st st' : Stat}
    {c d : Conn} {fd : ℕ} {contents : Mem} {path : Bytes}
    (h : getCachedirFile cfg env cachedir st c = (.file fd st' contents path, d)) :
    path = cacheName cachedir st ∧ ∃ stale uri size, d = c.found stale fd uri size := by
  unfold getCachedirFile at h
  extract_lets name found make at h
  have hmake : ∀ e : Conn, make e = (.file fd st' contents path, d) →
      path = cacheName cachedir st ∧ ∃ uri size, d = e.found none fd uri size := by
    intro e he
    dsimp only [make] at he
    rcases hindex : indexDirectory cfg env e with ⟨ret, f⟩
    rw [hindex] at he
    cases ret with
    | false => cases he
    | true =>
        rw [indexDirectory_eq_true hindex] at he
        cases hopen : env.reopenCache with
        | ok fd₁ st₁ contents₁ =>
            rw [hopen] at he
            obtain ⟨hres, rfl⟩ := Prod.mk.inj he
            obtain ⟨rfl, -, -, rfl⟩ := DirResult.file.inj hres
            refine ⟨rfl, cfg.directoryIndex.getD [], env.listingBytes, ?_⟩
            rw [Conn.found, Option.elim_none, List.append_nil]
            rfl
        | _ =>
            rw [hopen] at he
            cases he
  cases hopen : env.openFile name with
  | ok fd₁ st₁ contents₁ =>
      rw [hopen] at h
      dsimp only at h
      split_ifs at h with hfresh
      · obtain ⟨hres, rfl⟩ := Prod.mk.inj h
        obtain ⟨rfl, -, -, rfl⟩ := DirResult.file.inj hres
        refine ⟨rfl, none, cfg.directoryIndex.getD [], c.req.filesize, ?_⟩
        rw [Conn.found, Option.elim_none, List.append_nil]
        rfl
      · obtain ⟨hpath, uri, size, hd⟩ := hmake _ h
        refine ⟨hpath, some fd₁, uri, size, hd.trans ?_⟩
        rw [Conn.found, Conn.found, Option.elim_none, List.append_nil]
        simp only [Conn.emit, List.append_assoc, List.singleton_append, Option.elim_some]
  | _ =>
      rw [hopen] at h
      obtain ⟨hpath, uri, size, hd⟩ := hmake _ h
      exact ⟨hpath, none, uri, size, hd⟩

/-- The file that `get_dir` has found is the index file, or a listing. -/
lemma getDir_eq_file {cfg : Config} {env : Env} {st st' : Stat} {c d : Conn} {fd : ℕ}
    {contents : Mem} {path : Bytes}
    (h : getDir cfg env st c = (.file fd st' contents path, d)) :
    ∃ stale uri size, d = c.found stale fd uri size := by
  have hlisting : getDirListing cfg env st c = (.file fd st' contents path, d) →
      ∃ stale uri size, d = c.found stale fd uri size := by
    intro hl
    unfold getDirListing at hl
    cases hmaker : cfg.dirmaker with
    | some maker =>
        rw [hmaker] at hl
        dsimp only at hl
        split_ifs at hl <;> cases hl
    | none =>
        cases hcache : cfg.cachedir with
        | none =>
            rw [hmaker, hcache] at hl
            cases hl
        | some cachedir =>
            rw [hmaker, hcache] at hl
            exact (getCachedirFile_eq_file hl).2
  unfold getDir at h
  extract_lets name at h
  cases hindex : cfg.directoryIndex with
  | none =>
      rw [hindex] at h
      exact hlisting h
  | some index =>
      rw [hindex] at h
      dsimp only at h
      by_cases hlong : maxPathLength < name.length + index.length +
          (if cfg.gunzip then 3 else 0) + 1
      · rw [if_pos hlong] at h
        cases h
      rw [if_neg hlong] at h
      cases hopen : env.openFile (name ++ index) with
      | ok fd₁ st₁ contents₁ =>
          rw [hopen] at h
          obtain ⟨hres, rfl⟩ := Prod.mk.inj h
          obtain ⟨rfl, -, -, rfl⟩ := DirResult.file.inj hres
          refine ⟨none, index, c.req.filesize, ?_⟩
          rw [Conn.found, Option.elim_none, List.append_nil]
          rfl
      | eacces =>
          rw [hopen] at h
          cases h
      | other =>
          rw [hopen] at h
          cases h
      | enoent =>
          rw [hopen] at h
          dsimp only at h
          split_ifs at h with hgz
          · exact hlisting h
          · cases hopengz : env.openFile (name ++ index ++ str ".gz") with
            | ok fd₁ st₁ contents₁ =>
                rw [hopengz] at h
                cases h
            | _ =>
                rw [hopengz] at h
                exact hlisting h

/-- A handler writes a piece of the file to the socket. -/
def Conn.wrote (bs : Bytes) (c : Conn) : Conn :=
  (c.emit (.wrote c.req.bufferStart c.req.bufferEnd bs)).sent bs.length

/-- `process_get` completes a `HEAD`, fails, is blocked by the socket, or writes. -/
lemma processGet_cases (cfg : Config) (env : Env) (c : Conn) :
    processGet cfg env c = completeResponse cfg c ∨
    (∃ t, processGet cfg env c = (0, (c.setTape t).die)) ∨
    (∃ t, c.pop.1 = .again ∧ processGet cfg env c = (-1, c.setTape t)) ∨
    ∃ t, ∃ bs : Bytes, bs.length ≤ min (c.req.rangeLength % 2 ^ 32) cfg.systemBufsize ∧
      (processGet cfg env c = completeResponse cfg ((c.setTape t).wrote bs) ∨
        processGet cfg env c = (1, (c.setTape t).wrote bs)) := by
  unfold processGet
  by_cases hhead : c.req.method = .head
  · rw [if_pos hhead]
    exact Or.inl rfl
  rw [if_neg hhead]
  dsimp only
  by_cases hbus : env.sigbus = true
  · rw [if_pos hbus]
    exact Or.inr (Or.inl ⟨c.tape, rfl⟩)
  rw [if_neg hbus]
  rcases hpop : c.pop with ⟨res, d⟩
  obtain ⟨t, rfl⟩ := pop_setTape hpop
  cases res with
  | again => exact Or.inr (Or.inr (Or.inl ⟨t, rfl, rfl⟩))
  | intr => exact Or.inr (Or.inl ⟨t, rfl⟩)
  | error => exact Or.inr (Or.inl ⟨t, rfl⟩)
  | accept n =>
      refine Or.inr (Or.inr (Or.inr ⟨t, (c.req.dataMem.getD fun _ => 0).slice c.req.rangeStart
        (min n (min (c.req.rangeLength % 2 ^ 32) cfg.systemBufsize)), ?_, ?_⟩))
      · rw [Mem.length_slice]
        exact min_le_right _ _
      · rw [Conn.wrote, Mem.length_slice]
        dsimp only
        split_ifs
        · exact Or.inl rfl
        · exact Or.inr rfl

/-- `io_shuffle_sendfile` completes a response, fails, is blocked by the socket, or sends. -/
lemma ioShuffleSendfile_cases (cfg : Config) (c : Conn) :
    ioShuffleSendfile cfg c = completeResponse cfg c ∨
    ioShuffleSendfile cfg c = (1, c) ∨
    (∃ t, ioShuffleSendfile cfg c = (0, (c.setTape t).die)) ∨
    (∃ t, ((popRestart c.tape).1 = .again ∨ (popRestart c.tape).1 = .accept 0) ∧
      ioShuffleSendfile cfg c = (-1, c.setTape t)) ∨
    ∃ t, ∃ bs : Bytes, bs.length ≤ min c.req.rangeLength cfg.systemBufsize ∧
      (ioShuffleSendfile cfg c = completeResponse cfg ((c.setTape t).wrote bs) ∨
        ioShuffleSendfile cfg c = (1, (c.setTape t).wrote bs)) := by
  unfold ioShuffleSendfile
  by_cases hhead : c.req.method = .head
  · rw [if_pos hhead]
    exact Or.inl rfl
  rw [if_neg hhead]
  dsimp only
  by_cases hzero : min c.req.rangeLength cfg.systemBufsize = 0
  · rw [if_pos hzero]
    split_ifs
    · exact Or.inl rfl
    · exact Or.inr (Or.inl rfl)
  rw [if_neg hzero]
  by_cases hneg : 2 ^ 63 ≤ (c.req.ranges.headD ⟨0, 0⟩).start
  · rw [if_pos hneg]
    exact Or.inr (Or.inr (Or.inl ⟨c.tape, rfl⟩))
  rw [if_neg hneg]
  rcases hpop : popRestart c.tape with ⟨res, t⟩
  cases res with
  | again => exact Or.inr (Or.inr (Or.inr (Or.inl ⟨t, Or.inl rfl, rfl⟩)))
  | intr => exact Or.inr (Or.inr (Or.inl ⟨t, rfl⟩))
  | error => exact Or.inr (Or.inr (Or.inl ⟨t, rfl⟩))
  | accept n =>
      dsimp only
      by_cases hn : min n (min c.req.rangeLength cfg.systemBufsize) = 0
      · rw [if_pos hn]
        have hnone : n = 0 := by omega
        exact Or.inr (Or.inr (Or.inr (Or.inl ⟨t, Or.inr (by rw [hnone]), rfl⟩)))
      rw [if_neg hn]
      refine Or.inr (Or.inr (Or.inr (Or.inr ⟨t, c.req.dataFile.slice c.req.rangeStart
        (min n (min c.req.rangeLength cfg.systemBufsize)), ?_, ?_⟩)))
      · rw [Mem.length_slice]
        exact min_le_right _ _
      · rw [Conn.wrote, Mem.length_slice]
        split_ifs
        · exact Or.inl rfl
        · exact Or.inr rfl

/-- `io_shuffle` has written the front of the buffer. -/
def Conn.drained (n : ℕ) (c : Conn) : Conn :=
  (c.emit (.flushed (c.req.buffer.slice c.req.bufferStart n))).upd fun r => { r with
    bufferStart := r.bufferStart + n
    bytesWritten := r.bytesWritten + n }

/-- `req->buffer_start = req->buffer_end = 0`. -/
def Conn.clearBuffer (c : Conn) : Conn :=
  c.upd fun r => { r with bufferStart := 0, bufferEnd := 0 }

/-- The second half of `io_shuffle` is done, starts over with an empty buffer, is blocked by
the socket, fails, or writes. -/
lemma ioShuffleWrite_cases (c : Conn) :
    (c.req.bufferEnd - c.req.bufferStart = 0 ∧
      ((c.req.dataFd = 0 ∧ ioShuffleWrite c = (0, c)) ∨ ioShuffleWrite c = (1, c.clearBuffer))) ∨
    (∃ t, c.req.bufferEnd - c.req.bufferStart ≠ 0 ∧ (popRestart c.tape).1 = .again ∧
      ioShuffleWrite c = (-1, c.setTape t)) ∨
    (∃ t, ioShuffleWrite c = (0, (c.setTape t).die)) ∨
    ∃ t n, n ≤ c.req.bufferEnd - c.req.bufferStart ∧
      ((n = c.req.bufferEnd - c.req.bufferStart ∧
          ioShuffleWrite c = (1, ((c.setTape t).drained n).clearBuffer)) ∨
        ioShuffleWrite c = (1, (c.setTape t).drained n)) := by
  unfold ioShuffleWrite
  dsimp only
  by_cases hzero : c.req.bufferEnd - c.req.bufferStart = 0
  · rw [if_pos hzero]
    refine Or.inl ⟨hzero, ?_⟩
    by_cases hfd : c.req.dataFd = 0
    · rw [if_pos hfd]
      exact Or.inl ⟨hfd, rfl⟩
    · rw [if_neg hfd]
      exact Or.inr rfl
  rw [if_neg hzero]
  rcases hpop : popRestart c.tape with ⟨res, t⟩
  cases res with
  | again => exact Or.inr (Or.inl ⟨t, hzero, rfl, rfl⟩)
  | intr => exact Or.inr (Or.inr (Or.inl ⟨t, rfl⟩))
  | error => exact Or.inr (Or.inr (Or.inl ⟨t, rfl⟩))
  | accept n =>
      refine Or.inr (Or.inr (Or.inr ⟨t, min n (c.req.bufferEnd - c.req.bufferStart),
        min_le_right _ _, ?_⟩))
      dsimp only
      by_cases hall : min n (c.req.bufferEnd - c.req.bufferStart)
          = c.req.bufferEnd - c.req.bufferStart
      · rw [if_pos hall]
        exact Or.inl ⟨hall, rfl⟩
      · rw [if_neg hall]
        exact Or.inr rfl

/-- `io_shuffle` has read a piece of the file. -/
def Conn.shuffled (bs : Bytes) (c : Conn) : Conn :=
  (c.append bs).upd fun r => r.advance bs.length

/-- `io_shuffle` has closed the file. -/
def Conn.closeData (c : Conn) : Conn :=
  (c.emit (.closed c.req.dataFd)).upd fun r => { r with dataFd := 0 }

/-- `io_shuffle` completes a response, fails, waits for the file, or goes on to its second
half, at once, behind the end of the file, or with a piece of it. -/
lemma ioShuffle_cases (cfg : Config) (env : Env) (c : Conn) :
    ioShuffle cfg env c = completeResponse cfg c ∨
    ioShuffle cfg env c = (0, c.die) ∨
    ((env.fileRead = .again ∨ env.fileRead = .intr) ∧ c.req.dataFd ≠ 0 ∧
      c.req.bufferEnd - c.req.bufferStart = 0 ∧ ioShuffle cfg env c = (-1, c)) ∨
    ioShuffle cfg env c = ioShuffleWrite c ∨
    ((∃ n, env.fileRead = .accept n) ∧ c.req.dataFd ≠ 0 ∧
      ioShuffle cfg env c = ioShuffleWrite c.closeData) ∨
    ∃ bs : Bytes, (∃ n, env.fileRead = .accept n) ∧
      bs.length ≤ (min ((bufferSize : ℤ) - c.req.bufferEnd - 256)
        (toSigned 32 c.req.rangeLength)).toNat ∧
      c.req.bufferEnd + bs.length ≤ bufferSize ∧
      (ioShuffle cfg env c = completeResponse cfg (c.shuffled bs) ∨
        ioShuffle cfg env c = ioShuffleWrite (c.shuffled bs)) := by
  unfold ioShuffle
  by_cases hhead : c.req.method = .head
  · rw [if_pos hhead]
    exact Or.inl rfl
  rw [if_neg hhead]
  dsimp only
  by_cases hread : 0 < min ((bufferSize : ℤ) - c.req.bufferEnd - 256)
      (toSigned 32 c.req.rangeLength) ∧ c.req.dataFd ≠ 0
  swap
  · rw [if_neg hread]
    exact Or.inr (Or.inr (Or.inr (Or.inl rfl)))
  rw [if_pos hread]
  by_cases hseek : (!env.lseekOk) = true
  · rw [if_pos hseek]
    exact Or.inr (Or.inl rfl)
  rw [if_neg hseek]
  cases hres : env.fileRead with
  | again =>
      dsimp only
      split_ifs with hempty
      · exact Or.inr (Or.inr (Or.inl ⟨Or.inl rfl, hread.2, hempty, rfl⟩))
      · exact Or.inr (Or.inr (Or.inr (Or.inl rfl)))
  | intr =>
      dsimp only
      split_ifs with hempty
      · exact Or.inr (Or.inr (Or.inl ⟨Or.inr rfl, hread.2, hempty, rfl⟩))
      · exact Or.inr (Or.inr (Or.inr (Or.inl rfl)))
  | error => exact Or.inr (Or.inl rfl)
  | accept n =>
      dsimp only
      by_cases hn : min n (min ((bufferSize : ℤ) - c.req.bufferEnd - 256)
          (toSigned 32 c.req.rangeLength)).toNat = 0
      · rw [if_pos hn]
        exact Or.inr (Or.inr (Or.inr (Or.inr (Or.inl ⟨⟨n, rfl⟩, hread.2, rfl⟩))))
      rw [if_neg hn]
      refine Or.inr (Or.inr (Or.inr (Or.inr (Or.inr ⟨c.req.dataFile.slice c.req.rangeStart
        (min n (min ((bufferSize : ℤ) - c.req.bufferEnd - 256)
          (toSigned 32 c.req.rangeLength)).toNat), ⟨n, rfl⟩, ?_, ?_, ?_⟩))))
      · rw [Mem.length_slice]
        exact min_le_right _ _
      · rw [Mem.length_slice]
        omega
      · rw [Conn.shuffled, Mem.length_slice]
        split_ifs
        · exact Or.inl rfl
        · exact Or.inr rfl

/-! ### Scripts -/

/-- `write_from_pipe` has written some of the output of a script. -/
def Conn.pipedOut (n : ℕ) (c : Conn) : Conn :=
  (c.emit (.wrote c.req.bufferStart c.req.bufferEnd
    (c.req.buffer.slice c.req.headerLine.off n))).upd fun r => { r with
      headerLine := r.headerLine.add n
      bytesWritten := r.bytesWritten + n }

/-- `write_from_pipe` is done, goes on to read, is blocked by the socket, is interrupted,
fails, or writes. -/
lemma writeFromPipe_cases (c : Conn) :
    (c.req.headerEnd.off - c.req.headerLine.off = 0 ∧
      ((c.req.cgiStatus = .done ∧ writeFromPipe c = (0, c)) ∨
        (c.req.cgiStatus ≠ .done ∧ writeFromPipe c = (1, (c.setStatus .pipeRead).rewind)))) ∨
    (∃ t, c.pop.1 = .again ∧ writeFromPipe c = (-1, c.setTape t)) ∨
    (∃ t, writeFromPipe c = (1, c.setTape t)) ∨
    (∃ t, writeFromPipe c = (0, (c.setTape t).die)) ∨
    ∃ t n, n ≤ c.req.headerEnd.off - c.req.headerLine.off ∧
      ((n = c.req.headerEnd.off - c.req.headerLine.off ∧
          writeFromPipe c = (1, (((c.setTape t).pipedOut n).setStatus .pipeRead).rewind)) ∨
        (n ≠ c.req.headerEnd.off - c.req.headerLine.off ∧
          writeFromPipe c = (1, (c.setTape t).pipedOut n))) := by
  unfold writeFromPipe
  dsimp only
  by_cases hzero : c.req.headerEnd.off - c.req.headerLine.off = 0
  · rw [if_pos hzero]
    refine Or.inl ⟨hzero, ?_⟩
    by_cases hdone : c.req.cgiStatus = .done
    · rw [if_pos hdone]
      exact Or.inl ⟨hdone, rfl⟩
    · rw [if_neg hdone]
      exact Or.inr ⟨hdone, rfl⟩
  rw [if_neg hzero]
  rcases hpop : c.pop with ⟨res, d⟩
  obtain ⟨t, rfl⟩ := pop_setTape hpop
  cases res with
  | again => exact Or.inr (Or.inl ⟨t, rfl, rfl⟩)
  | intr => exact Or.inr (Or.inr (Or.inl ⟨t, rfl⟩))
  | error => exact Or.inr (Or.inr (Or.inr (Or.inl ⟨t, rfl⟩)))
  | accept n =>
      refine Or.inr (Or.inr (Or.inr (Or.inr
        ⟨t, min n (c.req.headerEnd.off - c.req.headerLine.off), min_le_right _ _, ?_⟩)))
      dsimp only
      by_cases hall : min n (c.req.headerEnd.off - c.req.headerLine.off)
          = c.req.headerEnd.off - c.req.headerLine.off
      · rw [if_pos hall]
        exact Or.inl ⟨hall, rfl⟩
      · rw [if_neg hall]
        exact Or.inr ⟨hall, rfl⟩

/-- `process_cgi_header` has begun. -/
def Conn.cgiBegun (c : Conn) : Conn :=
  c.upd fun r => { r with cgiStatus := if r.cgiStatus = .done then .done else .buffer }

/-- `process_cgi_header`, with what it reads taken from the beginning. -/
lemma processCgiHeader_eq (cfg : Config) (env : Env) (c : Conn) :
    processCgiHeader cfg env c =
      match findBlankLine (c.req.bufferString c.req.headerLine.off) with
      | none => (0, sendRBadGateway cfg env c.cgiBegun)
      | some k =>
          if c.req.httpVersion = .http09 then
            (1, c.cgiBegun.upd fun r =>
              { r with headerLine := ⟨.buffer, behindLine r (c.req.headerLine.off + k)⟩ })
          else if hasPrefixCase (str "Status: ") (c.req.bufferString c.req.headerLine.off) then
            (1, c.cgiBegun.upd fun r => { r with
              headerLine := ⟨.buffer, c.req.headerLine.off - 1⟩
              buffer := r.buffer.store (c.req.headerLine.off - 1) (str "HTTP/1.0 ") })
          else if hasPrefixCase (str "Location: ") (c.req.bufferString c.req.headerLine.off) then
            (1, (cgiLocation cfg env c.req.headerLine.off c.cgiBegun).setStatus .done)
          else cgiMerge cfg env (c.req.headerLine.off + k) c.cgiBegun := rfl

/-- `process_cgi_header` finds no header, skips it for `HTTP/0.9`, answers a status or a
location, or merges the header with the one of the server. -/
lemma processCgiHeader_cases (cfg : Config) (env : Env) (c : Conn) :
    processCgiHeader cfg env c = (0, sendRBadGateway cfg env c.cgiBegun) ∨
    ∃ k, findBlankLine (c.req.bufferString c.req.headerLine.off) = some k ∧
      ((c.req.httpVersion = .http09 ∧ processCgiHeader cfg env c = (1, c.cgiBegun.upd fun r =>
          { r with headerLine := ⟨.buffer, behindLine r (c.req.headerLine.off + k)⟩ })) ∨
        (processCgiHeader cfg env c = (1, c.cgiBegun.upd fun r => { r with
          headerLine := ⟨.buffer, c.req.headerLine.off - 1⟩
          buffer := r.buffer.store (c.req.headerLine.off - 1) (str "HTTP/1.0 ") })) ∨
        (hasPrefixCase (str "Location: ") (c.req.bufferString c.req.headerLine.off) = true ∧
          processCgiHeader cfg env c =
            (1, (cgiLocation cfg env c.req.headerLine.off c.cgiBegun).setStatus .done)) ∨
        processCgiHeader cfg env c =
          cgiMerge cfg env (c.req.headerLine.off + k) c.cgiBegun) := by
  rw [processCgiHeader_eq]
  cases hfind : findBlankLine (c.req.bufferString c.req.headerLine.off) with
  | none => exact Or.inl rfl
  | some k =>
      refine Or.inr ⟨k, rfl, ?_⟩
      dsimp only
      split_ifs with hold hstatus hloc
      · exact Or.inl ⟨hold, rfl⟩
      · exact Or.inr (Or.inl rfl)
      · exact Or.inr (Or.inr (Or.inl ⟨hloc, rfl⟩))
      · exact Or.inr (Or.inr (Or.inr rfl))

/-- Where the line of the location ends. -/
def locationStop (r : Request) (buf : ℕ) : ℕ :=
  buf + 10 + (((r.bufferString (buf + 10)).takeWhile (· != 10)).rdropWhile (· == 13)).length

/-- The location ends with a zero. -/
def Conn.endLocation (buf : ℕ) (c : Conn) : Conn :=
  c.upd fun r => { r with buffer := r.buffer.store (locationStop c.req buf) [0] }

/-- Only the buffer is changed. -/
lemma Conn.endLocation_eq (buf : ℕ) (c : Conn) :
    ∃ m, c.endLocation buf = { c with req := { c.req with buffer := m } } := by
  rw [Conn.endLocation, Conn.upd]
  exact ⟨c.req.buffer.store (locationStop c.req buf) [0], rfl⟩

/-- A location is answered with a page, behind which the location may have got its zero. -/
lemma cgiLocation_cases (cfg : Config) (env : Env) (buf : ℕ) (c : Conn) :
    cgiLocation cfg env buf c = sendRBadRequest cfg env c ∨
    ∃ url moreHdr, cgiLocation cfg env buf c
      = sendRMovedTemp cfg env url moreHdr (c.endLocation buf) := by
  rw [cgiLocation]
  dsimp only
  split_ifs
  · exact Or.inl rfl
  · exact Or.inr ⟨_, _, rfl⟩
  · exact Or.inl rfl

/-- `read_from_pipe` has read some of the output of a script. -/
def Conn.pipedIn (bs : Bytes) (c : Conn) : Conn :=
  c.upd fun r => { r with
    buffer := r.buffer.store r.headerEnd.off (bs ++ [0])
    headerEnd := r.headerEnd.add bs.length }

/-- `read_from_pipe` has found the end of the output. -/
def Conn.pipeEof (c : Conn) : Conn :=
  c.upd fun r => { r with
    buffer := r.buffer.store r.headerEnd.off [0]
    status := .pipeWrite
    cgiStatus := .done }

/-- `read_from_pipe` ends the data with a zero and goes on to `process_cgi_header`. -/
def Conn.toCgiHeader (s : CgiStatus) (c : Conn) : Conn :=
  c.upd fun r => { r with buffer := r.buffer.store r.headerEnd.off [0], cgiStatus := s }

/-- `read_from_pipe` finds the buffer full, is interrupted, is blocked by the pipe, fails,
finds the end, or reads. -/
lemma readFromPipe_cases (cfg : Config) (env : Env) (c : Conn) :
    (bufferSize + 1 - c.req.headerEnd.off = 0 ∧
      ((c.req.cgiStatus = .parse ∧
          readFromPipe cfg env c = processCgiHeader cfg env (c.toCgiHeader .buffer)) ∨
        (c.req.cgiStatus ≠ .parse ∧ readFromPipe cfg env c = (1, c.setStatus .pipeWrite)))) ∨
    (bufferSize + 1 - c.req.headerEnd.off ≠ 0 ∧
      ((env.pipeRead = .intr ∧ readFromPipe cfg env c = (1, c)) ∨
        (env.pipeRead = .again ∧ readFromPipe cfg env c = (-1, c)) ∨
        (env.pipeRead = .error ∧ readFromPipe cfg env c = (0, c.die)) ∨
        (env.pipeRead = .data [] ∧
          ((c.req.cgiStatus = .parse ∧
              readFromPipe cfg env c = processCgiHeader cfg env c.pipeEof) ∨
            (c.req.cgiStatus ≠ .parse ∧ readFromPipe cfg env c = (1, c.pipeEof)))) ∨
        ∃ b bs, env.pipeRead = .data (b :: bs) ∧
          ((c.req.cgiStatus ≠ .parse ∧ readFromPipe cfg env c = writeFromPipe
              (c.pipedIn ((b :: bs).take (bufferSize + 1 - c.req.headerEnd.off)))) ∨
            (c.req.cgiStatus = .parse ∧ readFromPipe cfg env c =
              (1, c.pipedIn ((b :: bs).take (bufferSize + 1 - c.req.headerEnd.off)))) ∨
            (c.req.cgiStatus = .parse ∧ readFromPipe cfg env c = processCgiHeader cfg env
              ((c.pipedIn ((b :: bs).take (bufferSize + 1 - c.req.headerEnd.off))).toCgiHeader
                .done))))) := by
  unfold readFromPipe
  dsimp only
  by_cases hfull : bufferSize + 1 - c.req.headerEnd.off = 0
  · rw [if_pos hfull]
    refine Or.inl ⟨hfull, ?_⟩
    by_cases hparse : c.req.cgiStatus = .parse
    · exact Or.inl ⟨hparse, if_pos hparse⟩
    · exact Or.inr ⟨hparse, if_neg hparse⟩
  rw [if_neg hfull]
  refine Or.inr ⟨hfull, ?_⟩
  cases hres : env.pipeRead with
  | intr => exact Or.inl ⟨rfl, rfl⟩
  | again => exact Or.inr (Or.inl ⟨rfl, rfl⟩)
  | error => exact Or.inr (Or.inr (Or.inl ⟨rfl, rfl⟩))
  | data bs =>
      cases bs with
      | nil =>
          refine Or.inr (Or.inr (Or.inr (Or.inl ⟨rfl, ?_⟩)))
          dsimp only
          rw [List.take_nil, if_pos rfl]
          by_cases hparse : c.req.cgiStatus = .parse
          · exact Or.inl ⟨hparse, if_pos hparse⟩
          · exact Or.inr ⟨hparse, if_neg hparse⟩
      | cons b bs =>
          refine Or.inr (Or.inr (Or.inr (Or.inr ⟨b, bs, rfl, ?_⟩)))
          dsimp only
          have hne : (b :: bs).take (bufferSize + 1 - c.req.headerEnd.off) ≠ [] := by
            rw [ne_eq, List.take_eq_nil_iff, not_or]
            exact ⟨hfull, List.cons_ne_nil b bs⟩
          rw [if_neg hne]
          by_cases hparse : c.req.cgiStatus = .parse
          · by_cases hblank : findBlankLine ((c.pipedIn ((b :: bs).take (bufferSize + 1
                - c.req.headerEnd.off))).req.bufferString c.req.headerLine.off) = none
            · exact Or.inr (Or.inl ⟨hparse, (if_neg (not_not_intro hparse)).trans (if_pos hblank)⟩)
            · exact Or.inr (Or.inr ⟨hparse, (if_neg (not_not_intro hparse)).trans (if_neg hblank)⟩)
          · exact Or.inl ⟨hparse, if_pos hparse⟩

end Yabwf
