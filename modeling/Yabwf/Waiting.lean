import Yabwf.Body
import Yabwf.Lib.Run
import Yabwf.Parsing
import Yabwf.Queue
import Yabwf.Visit

/-!
What a blocked request waits for.

* `Answers`: the functions that `read_header` calls never block.
* `blockingCall`: the system call behind a return value of `-1`; `blockingCall_refused`: the
  kernel has refused it.
* `handleStatus_armed`: what `block_request` arms behind a handler.
* `LeavesOutput`, `TailBlocked`: the flush of a visit leaves bytes in the buffer, and
  `write_from_pipe` is blocked below `read_from_pipe`.
* `blocked_waits_iff`: every blocked request of a run waits for what has blocked it exactly
  if no visit that blocks is of these kinds.
-/

namespace Yabwf

/-! ### Functions that never block -/

/-- A return value that does not block the request. -/
def Answers (i : ℤ) : Prop := i = 0 ∨ i = 1

lemma answers_zero : Answers 0 := Or.inl rfl

lemma answers_one : Answers 1 := Or.inr rfl

lemma Answers.ne_neg_one {i : ℤ} (h : Answers i) : i ≠ -1 := by
  rcases h with rfl | rfl <;> decide

lemma Answers.not_blocked {i : ℤ} (h : Answers i) {res : ℤ × Conn} {d : Conn}
    (heq : res = (i, d)) : res.1 ≠ -1 := by
  rw [heq]
  exact h.ne_neg_one

lemma answers_ite {p : Prop} [Decidable p] {a b : ℤ × Conn} (h : Answers a.1) (h' : Answers b.1) :
    Answers (if p then a else b).1 := by
  split_ifs
  · exact h
  · exact h'

lemma completeResponse_answers (cfg : Config) (c : Conn) :
    Answers (completeResponse cfg c).1 :=
  answers_ite (answers_ite answers_one answers_one) answers_zero

lemma initCgiFork_answers (cfg : Config) (env : Env) (pipes : Option (ℕ × ℕ)) (c : Conn) :
    Answers (initCgiFork cfg env pipes c).1 := by
  refine answers_ite ?_ answers_zero
  cases pipes with
  | none => exact answers_zero
  | some ends => exact answers_one

lemma initCgiPipes_answers (cfg : Config) (env : Env) (c : Conn) :
    Answers (initCgiPipes cfg env c).1 := by
  refine answers_ite ?_ (initCgiFork_answers cfg env none c)
  cases env.pipe with
  | none => exact answers_zero
  | some ends => exact answers_ite (initCgiFork_answers cfg env _ _) answers_zero

lemma initCgi_answers (cfg : Config) (env : Env) (c : Conn) : Answers (initCgi cfg env c).1 := by
  refine answers_ite (initCgiPipes_answers cfg env _) ?_
  rcases completeEnv cfg c.squashKa.req with ⟨ret, r⟩
  cases ret with
  | true => exact initCgiPipes_answers cfg env _
  | false => exact answers_zero

lemma gunzipResponse_answers (cfg : Config) (env : Env) (path : Bytes) (fields : Conn → Conn)
    (c : Conn) : Answers (gunzipResponse cfg env path fields c).1 :=
  answers_ite answers_zero (initCgi_answers cfg env _)

lemma fillBuffer_answers (cfg : Config) (env : Env) (c : Conn) :
    Answers (fillBuffer cfg env c).1 := by
  rcases fillBuffer_cases cfg env c with heq | heq | ⟨bs, -, -, heq | heq⟩
  · rw [heq]
    exact answers_one
  · rw [heq]
    exact answers_zero
  · rw [heq]
    exact completeResponse_answers cfg _
  · rw [heq]
    exact answers_one

lemma sendFileHeader_answers (cfg : Config) (env : Env) (path : Bytes) (c : Conn) :
    Answers (sendFileHeader cfg env path c).1 := by
  have hsend : ∀ d : Conn, Answers (if d.req.method = .head then completeResponse cfg d
      else fillBuffer cfg env (d.emit (.served path))).1 := fun d =>
    answers_ite (completeResponse_answers cfg d) (fillBuffer_answers cfg env _)
  refine answers_ite ?_ (hsend _)
  rcases rangesFixup cfg env (c.upd fun r => { r with ranges := [⟨0, ulongMax⟩] }) with ⟨ret, d⟩
  cases ret with
  | true => exact hsend _
  | false => exact answers_zero

lemma serveFile_answers (cfg : Config) (env : Env) (fd : ℕ) (st : Stat) (contents : Memory.Mem)
    (path : Bytes) (c : Conn) : Answers (serveFile cfg env fd st contents path c).1 := by
  refine answers_ite answers_zero (answers_ite answers_zero (answers_ite
    (answers_ite answers_zero answers_zero) ?_))
  rcases (if (c.upd fun r => { r with filesize := st.size, lastModified := st.mtime }).req.ranges
    = [] then (true, c.upd fun r => { r with filesize := st.size, lastModified := st.mtime })
    else rangesFixup cfg env (c.upd fun r =>
      { r with filesize := st.size, lastModified := st.mtime })) with ⟨ret, d⟩
  cases ret with
  | true => exact sendFileHeader_answers cfg env path _
  | false => exact answers_zero

/-- The same for the search for the file of a directory, where `-1` is another answer. -/
def DirAnswers : DirResult → Prop
  | .ret value => Answers value ∨ value < 0
  | .file .. => True

lemma dirAnswers_ite {p : Prop} [Decidable p] {a b : DirResult × Conn} (h : DirAnswers a.1)
    (h' : DirAnswers b.1) : DirAnswers (if p then a else b).1 := by
  split_ifs
  · exact h
  · exact h'

lemma dirAnswers_refused : DirAnswers (.ret (-1)) := Or.inr (by decide)

lemma getCachedirFile_answers (cfg : Config) (env : Env) (cachedir : Bytes) (st : Stat)
    (c : Conn) : DirAnswers (getCachedirFile cfg env cachedir st c).1 :=
  getCachedirFile_invariant (P := fun _ => True) (Q := fun res => DirAnswers res.1)
    (fun _ h => h) (fun _ h => h) (fun h => h) (fun _ _ _ _ h => h) (fun _ => dirAnswers_refused)
    (fun _ => dirAnswers_refused) cachedir st trivial

lemma getDirListing_answers (cfg : Config) (env : Env) (st : Stat) (c : Conn) :
    DirAnswers (getDirListing cfg env st c).1 := by
  unfold getDirListing
  cases cfg.dirmaker with
  | some maker => exact dirAnswers_ite (Or.inl answers_zero) (Or.inl (initCgi_answers cfg env _))
  | none =>
      cases cfg.cachedir with
      | some cachedir => exact getCachedirFile_answers cfg env cachedir st c
      | none => exact dirAnswers_refused

lemma getDir_answers (cfg : Config) (env : Env) (st : Stat) (c : Conn) :
    DirAnswers (getDir cfg env st c).1 := by
  unfold getDir
  cases cfg.directoryIndex with
  | none => exact getDirListing_answers cfg env st c
  | some index =>
      refine dirAnswers_ite dirAnswers_refused ?_
      cases env.openFile (c.req.pathname.getD [] ++ index) with
      | ok fd st' contents => exact trivial
      | eacces => exact dirAnswers_refused
      | other => exact dirAnswers_refused
      | enoent =>
          refine dirAnswers_ite (getDirListing_answers cfg env st c) ?_
          cases env.openFile (c.req.pathname.getD [] ++ index ++ str ".gz") with
          | ok fd st' contents => exact Or.inl (gunzipResponse_answers cfg env _ _ _)
          | _ => exact getDirListing_answers cfg env st c

lemma initGetOpened_answers (cfg : Config) (env : Env) (fd : ℕ) (st : Stat)
    (contents : Memory.Mem) (c : Conn) :
    Answers (initGetOpened cfg env fd st contents c).1 := by
  refine answers_ite answers_zero (answers_ite (serveFile_answers cfg env _ _ _ _ _)
    (answers_ite ?_ ?_))
  · cases directoryUrl cfg (c.emit (.closed fd)).req <;> exact answers_zero
  · have hdir := getDir_answers cfg env st (c.emit (.closed fd))
    generalize getDir cfg env st (c.emit (.closed fd)) = dir at hdir ⊢
    obtain ⟨res, d⟩ := dir
    cases res with
    | ret value =>
        dsimp only
        split_ifs with hneg
        · exact answers_zero
        · exact hdir.resolve_right hneg
    | file fd' st' contents' path =>
        by_cases hfd : fd' = 0 ∨ fd' = 1
        · dsimp only
          rw [if_pos hfd]
          rcases hfd with rfl | rfl
          · exact answers_zero
          · exact answers_one
        · dsimp only
          rw [if_neg hfd]
          exact serveFile_answers cfg env _ _ _ _ _

lemma openFailed_answers (cfg : Config) (env : Env) (res : OpenResult) (c : Conn) :
    Answers (openFailed cfg env res c).1 := by
  cases res <;> exact answers_zero

lemma initGet_answers (cfg : Config) (env : Env) (c : Conn) : Answers (initGet cfg env c).1 := by
  unfold initGet
  extract_lets path
  cases env.openFile path with
  | ok fd st contents => exact initGetOpened_answers cfg env fd st contents _
  | enoent =>
      refine answers_ite (openFailed_answers cfg env _ c) (answers_ite answers_zero ?_)
      cases env.openFile (path ++ str ".gz") with
      | ok fd st contents => exact gunzipResponse_answers cfg env _ _ _
      | _ => exact openFailed_answers cfg env _ c
  | _ => exact openFailed_answers cfg env _ c

lemma acceptPost_answers (cfg : Config) (env : Env) (c : Conn) :
    Answers (acceptPost cfg env c).1 :=
  answers_ite answers_zero (answers_ite answers_one answers_zero)

lemma translateRequest_answers (cfg : Config) (env : Env) (c : Conn) :
    Answers (translateRequest cfg env c).1 :=
  answers_ite answers_zero (answers_ite answers_zero (answers_ite (acceptPost_answers cfg env _)
    (answers_ite (initCgi_answers cfg env _) (initGet_answers cfg env _))))

lemma processHeaderEnd_answers (cfg : Config) (env : Env) (c : Conn) :
    Answers (processHeaderEnd cfg env c).1 := by
  refine answers_ite answers_zero ?_
  rcases unescapeUri (c.emit .headerEnd).req.requestUri true with ⟨ret, uri, query⟩
  cases ret with
  | false => exact answers_zero
  | true =>
      exact answers_ite answers_zero (answers_ite (translateRequest_answers cfg env _)
        (answers_ite answers_zero (translateRequest_answers cfg env _)))

lemma headerBlankLine_answers (cfg : Config) (env : Env) (c : Conn) :
    Answers (headerBlankLine cfg env c).1 := by
  have hend := processHeaderEnd_answers cfg env c
  unfold headerBlankLine
  generalize processHeaderEnd cfg env c = res at hend ⊢
  obtain ⟨retval, d⟩ := res
  refine answers_ite ?_ hend
  unfold headerPost
  dsimp only [Conn.upd_req]
  cases d.req.contentLength with
  | none => exact answers_zero
  | some off => exact answers_ite answers_zero (answers_ite answers_zero answers_one)

/-! ### Handlers that block -/

/-- `read_header` blocks in its `read`. -/
lemma readHeader_blocked {cfg : Config} {env : Env} {c : Conn}
    (h : (readHeader cfg env c).1 = -1) : env.sockRead = .again ∧
      ∃ d, Parses c d ∧ d.req.status.code < ReqStatus.bodyRead.code ∧
        readHeader cfg env c = (-1, d) := by
  have hloop := readHeaderLoop_parses cfg env (c.req.clientStreamPos - c.req.parsePos) c
  rw [readHeader] at h ⊢
  generalize readHeaderLoop cfg env (c.req.clientStreamPos - c.req.parsePos) c = res
    at h hloop ⊢
  cases res with
  | ret value d =>
      obtain ⟨hzero, -⟩ := hloop
      exact absurd (hzero.symm.trans h) (by decide)
  | loglineEnd d => exact absurd h (processHeaderEnd_answers cfg env d).ne_neg_one
  | blankLine d => exact absurd h (headerBlankLine_answers cfg env d).ne_neg_one
  | more d =>
      dsimp only at h ⊢
      by_cases hstatus : d.req.status.code < ReqStatus.bodyRead.code
      swap
      · rw [if_neg hstatus] at h
        exact absurd h answers_one.ne_neg_one
      rw [if_pos hstatus] at h ⊢
      rcases readHeaderMore_cases env d with
        ⟨-, heq⟩ | ⟨-, ⟨-, heq⟩ | ⟨hagain, heq⟩ | ⟨-, heq⟩ | ⟨b, bs, -, heq⟩⟩
      · exact absurd h (answers_zero.not_blocked heq)
      · exact absurd h (answers_one.not_blocked heq)
      · exact ⟨hagain, d, hloop, hstatus, heq⟩
      · exact absurd h (answers_zero.not_blocked heq)
      · exact absurd h (answers_one.not_blocked heq)

lemma readBody_blocked {cfg : Config} {env : Env} {c : Conn}
    (h : (readBody cfg env c).1 = -1) :
    env.sockRead = .again ∧ readBody cfg env c = (-1, c) := by
  rcases readBody_cases cfg env c with ⟨-, heq⟩ | ⟨-, ⟨hagain, heq⟩ | ⟨-, hzero⟩ | ⟨bs, -, heq⟩⟩
  · exact absurd h (answers_one.not_blocked heq)
  · exact ⟨hagain, heq⟩
  · exact absurd (hzero.symm.trans h) (by decide)
  · exact absurd h (answers_one.not_blocked heq)

lemma writeBody_blocked {cfg : Config} {env : Env} {c : Conn}
    (h : (writeBody cfg env c).1 = -1) :
    env.postWrite = .again ∧ writeBody cfg env c = (-1, c) := by
  rcases writeBody_cases cfg env c with
    ⟨-, ⟨-, heq⟩ | ⟨-, heq⟩⟩ | ⟨-, ⟨hagain, heq⟩ | ⟨-, heq⟩ | ⟨-, heq⟩ | ⟨n, -, heq⟩⟩
  · rw [heq] at h
    exact absurd h (initCgi_answers cfg env _).ne_neg_one
  · exact absurd h (answers_one.not_blocked heq)
  · exact ⟨hagain, heq⟩
  · exact absurd h (answers_one.not_blocked heq)
  · exact absurd h (answers_zero.not_blocked heq)
  · exact absurd h (answers_one.not_blocked heq)

lemma processGet_blocked {cfg : Config} {env : Env} {c : Conn}
    (h : (processGet cfg env c).1 = -1) :
    c.pop.1 = .again ∧ ∃ t, processGet cfg env c = (-1, c.setTape t) := by
  rcases processGet_cases cfg env c with
    heq | ⟨t, heq⟩ | ⟨t, hagain, heq⟩ | ⟨t, bs, -, heq | heq⟩
  · rw [heq] at h
    exact absurd h (completeResponse_answers cfg c).ne_neg_one
  · exact absurd h (answers_zero.not_blocked heq)
  · exact ⟨hagain, t, heq⟩
  · rw [heq] at h
    exact absurd h (completeResponse_answers cfg _).ne_neg_one
  · exact absurd h (answers_one.not_blocked heq)

lemma writeFromPipe_blocked {c : Conn} (h : (writeFromPipe c).1 = -1) :
    c.pop.1 = .again ∧ ∃ t, writeFromPipe c = (-1, c.setTape t) := by
  rcases writeFromPipe_cases c with
    ⟨-, ⟨-, heq⟩ | ⟨-, heq⟩⟩ | ⟨t, hagain, heq⟩ | ⟨t, heq⟩ | ⟨t, heq⟩ |
      ⟨t, n, -, ⟨-, heq⟩ | ⟨-, heq⟩⟩
  · exact absurd h (answers_zero.not_blocked heq)
  · exact absurd h (answers_one.not_blocked heq)
  · exact ⟨hagain, t, heq⟩
  · exact absurd h (answers_one.not_blocked heq)
  · exact absurd h (answers_zero.not_blocked heq)
  · exact absurd h (answers_one.not_blocked heq)
  · exact absurd h (answers_one.not_blocked heq)

lemma processCgiHeader_answers (cfg : Config) (env : Env) (c : Conn) :
    Answers (processCgiHeader cfg env c).1 := by
  rcases processCgiHeader_cases cfg env c with
    heq | ⟨k, -, ⟨-, heq⟩ | heq | ⟨-, heq⟩ | heq⟩
  · rw [heq]
    exact answers_zero
  · rw [heq]
    exact answers_one
  · rw [heq]
    exact answers_one
  · rw [heq]
    exact answers_one
  · rw [heq]
    refine answers_ite answers_zero ?_
    generalize (reqFlush _).2.req.method = method
    cases method with
    | head => exact answers_zero
    | _ => exact answers_one

lemma pop_upd_fst (f : Request → Request) (c : Conn) : (c.upd f).pop.1 = c.pop.1 := by
  rw [Conn.pop, Conn.pop, Conn.upd_tape]
  cases c.tape <;> rfl

/-- `read_from_pipe` blocks in its `read`, or in the `write` of `write_from_pipe`. -/
lemma readFromPipe_blocked {cfg : Config} {env : Env} {c : Conn}
    (h : (readFromPipe cfg env c).1 = -1) :
    (env.pipeRead = .again ∧ readFromPipe cfg env c = (-1, c)) ∨
    (env.pipeRead ≠ .again ∧ c.pop.1 = .again ∧
      ∃ t bs, readFromPipe cfg env c = (-1, (c.pipedIn bs).setTape t)) := by
  rcases readFromPipe_cases cfg env c with
    ⟨-, ⟨-, heq⟩ | ⟨-, heq⟩⟩ | ⟨-, ⟨-, heq⟩ | ⟨hagain, heq⟩ | ⟨-, heq⟩ | ⟨-, ⟨-, heq⟩ | ⟨-, heq⟩⟩ |
      ⟨b, bs, hdata, ⟨-, heq⟩ | ⟨-, heq⟩ | ⟨-, heq⟩⟩⟩
  · rw [heq] at h
    exact absurd h (processCgiHeader_answers cfg env _).ne_neg_one
  · exact absurd h (answers_one.not_blocked heq)
  · exact absurd h (answers_one.not_blocked heq)
  · exact Or.inl ⟨hagain, heq⟩
  · exact absurd h (answers_zero.not_blocked heq)
  · rw [heq] at h
    exact absurd h (processCgiHeader_answers cfg env _).ne_neg_one
  · exact absurd h (answers_one.not_blocked heq)
  · rw [heq] at h
    obtain ⟨hagain, t, hwrite⟩ := writeFromPipe_blocked h
    rw [Conn.pipedIn, pop_upd_fst] at hagain
    exact Or.inr ⟨by rw [hdata]; exact nofun, hagain, t, _, heq.trans hwrite⟩
  · exact absurd h (answers_one.not_blocked heq)
  · rw [heq] at h
    exact absurd h (processCgiHeader_answers cfg env _).ne_neg_one

lemma ioShuffleSendfile_blocked {cfg : Config} {c : Conn}
    (h : (ioShuffleSendfile cfg c).1 = -1) :
    ((popRestart c.tape).1 = .again ∨ (popRestart c.tape).1 = .accept 0) ∧
      ∃ t, ioShuffleSendfile cfg c = (-1, c.setTape t) := by
  rcases ioShuffleSendfile_cases cfg c with
    heq | heq | ⟨t, heq⟩ | ⟨t, hrefuse, heq⟩ | ⟨t, bs, -, heq | heq⟩
  · rw [heq] at h
    exact absurd h (completeResponse_answers cfg c).ne_neg_one
  · exact absurd h (answers_one.not_blocked heq)
  · exact absurd h (answers_zero.not_blocked heq)
  · exact ⟨hrefuse, t, heq⟩
  · rw [heq] at h
    exact absurd h (completeResponse_answers cfg _).ne_neg_one
  · exact absurd h (answers_one.not_blocked heq)

lemma ioShuffleWrite_blocked {c : Conn} (h : (ioShuffleWrite c).1 = -1) :
    c.req.bufferEnd - c.req.bufferStart ≠ 0 ∧ (popRestart c.tape).1 = .again ∧
      ∃ t, ioShuffleWrite c = (-1, c.setTape t) := by
  rcases ioShuffleWrite_cases c with
    ⟨-, ⟨-, heq⟩ | heq⟩ | ⟨t, hsome, hagain, heq⟩ | ⟨t, heq⟩ | ⟨t, n, -, ⟨-, heq⟩ | heq⟩
  · exact absurd h (answers_zero.not_blocked heq)
  · exact absurd h (answers_one.not_blocked heq)
  · exact ⟨hsome, hagain, t, heq⟩
  · exact absurd h (answers_zero.not_blocked heq)
  · exact absurd h (answers_one.not_blocked heq)
  · exact absurd h (answers_one.not_blocked heq)

/-- `io_shuffle` blocks in its `read` with an empty buffer, or in its `write`. -/
lemma ioShuffle_blocked {cfg : Config} {env : Env} {c : Conn}
    (h : (ioShuffle cfg env c).1 = -1) :
    ((env.fileRead = .again ∨ env.fileRead = .intr) ∧ c.req.bufferEnd - c.req.bufferStart = 0 ∧
      ioShuffle cfg env c = (-1, c)) ∨
    (¬((env.fileRead = .again ∨ env.fileRead = .intr) ∧
        c.req.bufferEnd - c.req.bufferStart = 0) ∧
      (popRestart c.tape).1 = .again ∧ (ioShuffle cfg env c).2.req.bufferEnd ≠ 0) := by
  have hwrite : ∀ d : Conn, ioShuffle cfg env c = ioShuffleWrite d → d.tape = c.tape →
      d.req.bufferEnd - d.req.bufferStart ≠ 0 ∧
        (popRestart c.tape).1 = .again ∧ (ioShuffle cfg env c).2.req.bufferEnd ≠ 0 := by
    intro d heq htape
    rw [heq] at h ⊢
    obtain ⟨hsome, hagain, t, hd⟩ := ioShuffleWrite_blocked h
    rw [hd, ← htape]
    refine ⟨hsome, hagain, ?_⟩
    show d.req.bufferEnd ≠ 0
    omega
  have haccept : (∃ n, env.fileRead = .accept n) →
      ¬(env.fileRead = .again ∨ env.fileRead = .intr) := by
    rintro ⟨n, hn⟩
    rw [hn]
    exact not_or.mpr ⟨nofun, nofun⟩
  rcases ioShuffle_cases cfg env c with
    heq | heq | ⟨hwhy, -, hempty, heq⟩ | heq | ⟨hread, -, heq⟩ | ⟨bs, hread, -, -, heq | heq⟩
  · rw [heq] at h
    exact absurd h (completeResponse_answers cfg c).ne_neg_one
  · exact absurd h (answers_zero.not_blocked heq)
  · exact Or.inl ⟨hwhy, hempty, heq⟩
  · obtain ⟨hsome, hend⟩ := hwrite _ heq rfl
    exact Or.inr ⟨fun hnot => hsome hnot.2, hend⟩
  · exact Or.inr ⟨fun hnot => haccept hread hnot.1, (hwrite _ heq rfl).2⟩
  · rw [heq] at h
    exact absurd h (completeResponse_answers cfg _).ne_neg_one
  · exact Or.inr ⟨fun hnot => haccept hread hnot.1, (hwrite _ heq rfl).2⟩

lemma processDone_blocked {c : Conn} (h : (processDone c).1 = -1) :
    c.pop.1 = .again ∧ ∃ t, processDone c = (-1, c.setTape t) := by
  rw [processDone] at h ⊢
  rcases reqFlush_cases c with ⟨hret, -⟩ | ⟨t, -, hagain, heq⟩ | ⟨t, es, s, e, -, heq⟩
  · rcases hres : reqFlush c with ⟨retval, d⟩
    rw [hres] at h hret
    dsimp only at h hret
    rw [if_pos hret] at h
    exact absurd h answers_zero.ne_neg_one
  · rw [heq]
    exact ⟨hagain, t, rfl⟩
  · rw [heq] at h
    dsimp only at h
    rw [if_neg (by omega)] at h
    split_ifs at h

/-! ### What `block_request` arms -/

/-- The `read` of `io_shuffle` says `EAGAIN`. -/
def Env.FileRefuses (env : Env) : Prop := env.fileRead = .again ∨ env.fileRead = .intr

instance (env : Env) : Decidable env.FileRefuses := by
  unfold Env.FileRefuses
  infer_instance

/-- What `block_request` arms behind a handler that has found the output buffer empty. -/
def statusWait (cfg : Config) (env : Env) : ReqStatus → Wait
  | .readHeader | .oneCr | .oneLf | .twoCr | .bodyRead => .socketRead
  | .bodyWrite => .postWrite
  | .pipeRead => .dataRead
  | .ioShuffle => if cfg.haveSendfile = false ∧ env.FileRefuses then .dataRead else .socketWrite
  | _ => .socketWrite

lemma blockRequest_of_output {cfg : Config} {r : Request} (h : r.bufferEnd ≠ 0) :
    blockRequest cfg r = .socketWrite := if_pos h

lemma blockRequest_of_empty {cfg : Config} {r : Request} (h : r.bufferEnd = 0) :
    blockRequest cfg r = match r.status with
      | .ioShuffle => if cfg.haveSendfile = false ∧ r.bufferEnd - r.bufferStart = 0 then .dataRead
          else .socketWrite
      | .write | .pipeWrite | .done => .socketWrite
      | .pipeRead => .dataRead
      | .bodyWrite => .postWrite
      | _ => .socketRead := if_neg (not_not_intro h)

/-- A handler that leaves the end of the buffer where it is. -/
lemma armed_of_kept {cfg : Config} {c d : Conn} {w : Wait}
    (hend : d.req.bufferEnd = c.req.bufferEnd)
    (harm : d.req.bufferEnd = 0 → blockRequest cfg d.req = w) :
    blockRequest cfg d.req = if c.req.bufferEnd ≠ 0 then .socketWrite else w := by
  by_cases hout : c.req.bufferEnd = 0
  · rw [if_neg (not_not_intro hout)]
    exact harm (hend.trans hout)
  · rw [if_pos hout]
    exact blockRequest_of_output (hend ▸ hout)

lemma readHeader_armed {cfg : Config} {env : Env} {c : Conn} (h : (readHeader cfg env c).1 = -1) :
    blockRequest cfg (readHeader cfg env c).2.req =
      if c.req.bufferEnd ≠ 0 then .socketWrite else .socketRead := by
  obtain ⟨-, d, hparses, hstatus, heq⟩ := readHeader_blocked h
  rw [heq]
  refine armed_of_kept hparses.bufferEnd fun hzero => ?_
  rw [blockRequest_of_empty hzero]
  cases hs : d.req.status <;> rw [hs] at hstatus <;> first | rfl | exact absurd hstatus (by decide)

/-- A handler that leaves everything but the answers of the socket. -/
lemma armed_of_tape {cfg : Config} {c : Conn} {res : ℤ × Conn}
    (h : ∃ t, res = (-1, c.setTape t)) {w : Wait}
    (harm : c.req.bufferEnd = 0 → blockRequest cfg c.req = w) :
    blockRequest cfg res.2.req = if c.req.bufferEnd ≠ 0 then .socketWrite else w := by
  obtain ⟨t, rfl⟩ := h
  exact armed_of_kept (c := c) (d := c.setTape t) rfl harm

/-- `block_request` behind a handler. -/
lemma handleStatus_armed {cfg : Config} {env : Env} {c : Conn}
    (h : (handleStatus cfg env c).1 = -1) :
    blockRequest cfg (handleStatus cfg env c).2.req =
      if c.req.bufferEnd ≠ 0 then .socketWrite else statusWait cfg env c.req.status := by
  unfold handleStatus at h ⊢
  cases hs : c.req.status <;> rw [hs] at h <;> dsimp only at h ⊢
  case readHeader => exact readHeader_armed h
  case oneCr => exact readHeader_armed h
  case oneLf => exact readHeader_armed h
  case twoCr => exact readHeader_armed h
  case bodyRead =>
    rw [(readBody_blocked h).2]
    exact armed_of_kept rfl fun hzero => by rw [blockRequest_of_empty hzero, hs]; rfl
  case bodyWrite =>
    rw [(writeBody_blocked h).2]
    exact armed_of_kept rfl fun hzero => by rw [blockRequest_of_empty hzero, hs]; rfl
  case write =>
    exact armed_of_tape (processGet_blocked h).2
      fun hzero => by rw [blockRequest_of_empty hzero, hs]; rfl
  case pipeRead =>
    rcases readFromPipe_blocked h with ⟨-, heq⟩ | ⟨-, -, t, bs, heq⟩
    · rw [heq]
      exact armed_of_kept rfl fun hzero => by rw [blockRequest_of_empty hzero, hs]; rfl
    · rw [heq]
      have hend : ((c.pipedIn bs).setTape t).req.bufferEnd = c.req.bufferEnd := rfl
      have hstatus : ((c.pipedIn bs).setTape t).req.status = c.req.status := rfl
      exact armed_of_kept hend fun hzero => by rw [blockRequest_of_empty hzero, hstatus, hs]; rfl
  case pipeWrite =>
    exact armed_of_tape (writeFromPipe_blocked h).2
      fun hzero => by rw [blockRequest_of_empty hzero, hs]; rfl
  case ioShuffle =>
    by_cases hsend : cfg.haveSendfile = true
    · rw [if_pos hsend] at h ⊢
      refine armed_of_tape (ioShuffleSendfile_blocked h).2 fun hzero => ?_
      rw [blockRequest_of_empty hzero, hs, statusWait]
      dsimp only
      rw [if_neg (by simp [hsend]), if_neg (by simp [hsend])]
    rw [if_neg hsend] at h ⊢
    rw [Bool.not_eq_true] at hsend
    rcases ioShuffle_blocked h with ⟨hrefuse, hempty, heq⟩ | ⟨hnot, -, hend⟩
    · rw [heq]
      refine armed_of_kept rfl fun hzero => ?_
      rw [blockRequest_of_empty hzero, hs]
      exact (if_pos ⟨hsend, hempty⟩).trans (if_pos ⟨hsend, hrefuse⟩).symm
    · rw [blockRequest_of_output hend]
      by_cases hout : c.req.bufferEnd = 0
      · rw [if_neg (not_not_intro hout), statusWait, if_neg]
        exact fun hwait => hnot ⟨hwait.2, by rw [hout, Nat.zero_sub]⟩
      · rw [if_pos hout]
  case done =>
    exact armed_of_tape (processDone_blocked h).2
      fun hzero => by rw [blockRequest_of_empty hzero, hs]; rfl
  case timedOut => exact absurd h (by simp)
  case dead => exact absurd h (by simp)

/-! ### The flush of a visit -/

/-- How much of the buffer the socket takes when it is flushed. -/
def Conn.taken (c : Conn) : ℕ :=
  match c.pop.1 with
  | .accept n => min n c.req.bytesToWrite
  | _ => 0

/-- The flush leaves bytes in the buffer. -/
def LeavesOutput (c : Conn) : Prop :=
  c.req.bufferEnd ≠ 0 ∧ c.req.bufferStart + c.taken ≠ c.req.bufferEnd

instance (c : Conn) : Decidable (LeavesOutput c) := by
  unfold LeavesOutput
  infer_instance

lemma flushDone_leaves (c : Conn) :
    (flushDone c).2.req.status = c.req.status ∧
    ((c.req.bufferStart ≠ c.req.bufferEnd ∧ (flushDone c).2.req.bufferEnd = c.req.bufferEnd ∧
        (flushDone c).2.req.bufferStart = c.req.bufferStart) ∨
      (c.req.bufferStart = c.req.bufferEnd ∧ (flushDone c).2.req.bufferEnd = 0)) := by
  obtain ⟨s, e, heq, ⟨hsame, hs, he⟩ | ⟨hdiff, hs, he⟩⟩ := flushDone_cases c
  · rw [heq]
    exact ⟨rfl, Or.inr ⟨hsame, he⟩⟩
  · rw [heq]
    exact ⟨rfl, Or.inl ⟨hdiff, he, hs⟩⟩

/-- What a flush leaves of the buffer when the socket takes some of it. -/
lemma reqFlush_leaves {c : Conn} (hlive : ¬ReqStatus.done.code < c.req.status.code)
    (hok : c.req.bytesToWrite = 0 ∨ ∃ n, c.pop.1 = .accept n) :
    (reqFlush c).2.req.status = c.req.status ∧
    ((c.req.bufferStart + c.taken ≠ c.req.bufferEnd ∧
        (reqFlush c).2.req.bufferEnd = c.req.bufferEnd ∧
        (reqFlush c).2.req.bufferStart = c.req.bufferStart + c.taken) ∨
      (c.req.bufferStart + c.taken = c.req.bufferEnd ∧ (reqFlush c).2.req.bufferEnd = 0)) := by
  unfold reqFlush
  dsimp only
  rw [if_neg hlive, ← Request.bytesToWrite]
  by_cases hzero : c.req.bytesToWrite = 0
  · have htaken : c.taken = 0 := by
      rw [Conn.taken]
      cases c.pop.1 with
      | accept n => exact (congrArg (min n) hzero).trans (Nat.min_zero n)
      | _ => rfl
    rw [if_pos hzero, htaken, Nat.add_zero]
    exact flushDone_leaves c
  rw [if_neg hzero]
  obtain ⟨n, hn⟩ := hok.resolve_left hzero
  rcases hpop : c.pop with ⟨res, e⟩
  obtain ⟨t, rfl⟩ := pop_setTape hpop
  rw [hpop] at hn
  cases hn
  have htaken : c.taken = min n c.req.bytesToWrite := by rw [Conn.taken, hpop]
  rw [htaken]
  exact flushDone_leaves (((c.setTape t).upd fun r => { r with
    bufferStart := r.bufferStart + min n c.req.bytesToWrite }).emit
    (.flushed (c.req.buffer.slice c.req.bufferStart (min n c.req.bytesToWrite))))

/-- What the handler finds behind the flush. -/
lemma flushFirst_leaves {c d : Conn} (hlive : c.req.status.code < ReqStatus.timedOut.code)
    (h : flushFirst c = (1, d)) : d.req.status = c.req.status ∧
      ((LeavesOutput c ∧ d.req.bufferEnd = c.req.bufferEnd ∧
          d.req.bufferStart = c.req.bufferStart + c.taken) ∨
        (¬LeavesOutput c ∧ d.req.bufferEnd = 0)) := by
  have hok : FlushOk c := (flushFirst_eq_one_iff hlive).mp (by rw [h])
  unfold flushFirst at h
  by_cases hend : c.req.bufferEnd = 0
  · rw [if_neg (not_and_of_not_left _ (not_not_intro hend))] at h
    cases h
    exact ⟨rfl, Or.inr ⟨fun hleaves => hleaves.1 hend, hend⟩⟩
  rw [if_pos ⟨hend, hlive⟩] at h
  obtain ⟨hstatus, hleft⟩ :=
    reqFlush_leaves (not_lt.mpr (Nat.le_of_lt_succ hlive)) (hok.resolve_left hend)
  generalize reqFlush c = res at h hstatus hleft
  obtain ⟨retval, e⟩ := res
  have heq : e = d := by
    dsimp only at h
    split_ifs at h with herror hpos
    · cases h
    · exact (Prod.mk.inj h).2
    · exact (Prod.mk.inj h).2
  subst heq
  refine ⟨hstatus, ?_⟩
  rcases hleft with ⟨hne, hkept, hstart⟩ | ⟨heq, hzero⟩
  · exact Or.inl ⟨⟨hend, hne⟩, hkept, hstart⟩
  · exact Or.inr ⟨fun hleaves => hleaves.2 heq, hzero⟩

/-! ### What blocks a visit -/

/-- The system call behind a return value of `-1`. In the flush it is the `write` of `req_flush`;
`read_header` and `read_body` read from the socket and `write_body` writes to the file; a script
is read from the pipe, but `read_from_pipe` goes on to the `write` of `write_from_pipe` with
what it has read; `io_shuffle` reads the file when its buffer is empty, and every other handler
writes to the socket. -/
def blockingCall (cfg : Config) (env : Env) (c : Conn) : Wait :=
  if (flushFirst c).1 ≠ 1 then .socketWrite
  else
    match c.req.status with
    | .readHeader | .oneCr | .oneLf | .twoCr | .bodyRead => .socketRead
    | .bodyWrite => .postWrite
    | .pipeRead => if env.pipeRead = .again then .dataRead else .socketWrite
    | .ioShuffle =>
        if cfg.haveSendfile = false ∧ env.FileRefuses ∧
            (flushFirst c).2.req.bufferEnd - (flushFirst c).2.req.bufferStart = 0 then .dataRead
        else .socketWrite
    | _ => .socketWrite

/-- The kernel has refused a call of the visit, or `sendfile` has sent nothing. -/
def Refused (env : Env) (c : Conn) : Wait → Prop
  | .socketRead => env.sockRead = .again
  | .postWrite => env.postWrite = .again
  | .dataRead =>
      if c.req.status = .pipeRead then env.pipeRead = .again else env.FileRefuses
  | .socketWrite =>
      if c.req.status = .ioShuffle then
        (popRestart c.tape).1 = .again ∨ (popRestart c.tape).1 = .accept 0
      else c.pop.1 = .again

lemma popRestart_of_pop {c : Conn} (h : c.pop.1 = .again) : (popRestart c.tape).1 = .again := by
  rw [Conn.pop] at h
  rcases htape : c.tape with _ | ⟨r, t⟩
  · rfl
  · rw [htape] at h
    cases h
    rfl

/-- Where a handler is blocked, the kernel has refused the call that it is blocked in. -/
lemma handleStatus_refused {cfg : Config} {env : Env} {c d : Conn} (hflush : flushFirst c = (1, d))
    (hstatus : d.req.status = c.req.status) (h : (handleStatus cfg env d).1 = -1) :
    Refused env d (blockingCall cfg env c) := by
  rw [blockingCall, hflush, if_neg (not_not_intro rfl), ← hstatus]
  unfold handleStatus at h
  cases hs : d.req.status <;> rw [hs] at h <;> dsimp only at h ⊢
  case readHeader => exact (readHeader_blocked h).1
  case oneCr => exact (readHeader_blocked h).1
  case oneLf => exact (readHeader_blocked h).1
  case twoCr => exact (readHeader_blocked h).1
  case bodyRead => exact (readBody_blocked h).1
  case bodyWrite => exact (writeBody_blocked h).1
  case write => rw [Refused, hs]; exact (processGet_blocked h).1
  case pipeRead =>
    rcases readFromPipe_blocked h with ⟨hagain, -⟩ | ⟨hnot, hagain, -⟩
    · rw [if_pos hagain, Refused, if_pos hs]
      exact hagain
    · rw [if_neg hnot, Refused, hs]
      exact hagain
  case pipeWrite => rw [Refused, hs]; exact (writeFromPipe_blocked h).1
  case ioShuffle =>
    by_cases hsend : cfg.haveSendfile = true
    · rw [if_pos hsend] at h
      rw [if_neg (by simp [hsend]), Refused, if_pos hs]
      exact (ioShuffleSendfile_blocked h).1
    rw [if_neg hsend] at h
    rw [Bool.not_eq_true] at hsend
    rcases ioShuffle_blocked h with ⟨hrefuse, hempty, -⟩ | ⟨hnot, hagain, -⟩
    · rw [if_pos ⟨hsend, hrefuse, hempty⟩, Refused, hs]
      exact hrefuse
    · rw [if_neg fun hwait => hnot hwait.2, Refused, if_pos hs]
      exact Or.inl hagain
  case done => rw [Refused, hs]; exact (processDone_blocked h).1
  case timedOut => exact absurd h (by simp)
  case dead => exact absurd h (by simp)

/-- The handler of the visit is blocked, if at all, in a call other than a write to the
socket. -/
def BlocksElsewhere (cfg : Config) (env : Env) (c : Conn) : Prop :=
  match c.req.status with
  | .readHeader | .oneCr | .oneLf | .twoCr | .bodyRead | .bodyWrite => True
  | .pipeRead => env.pipeRead = .again
  | .ioShuffle => cfg.haveSendfile = false ∧ env.FileRefuses ∧
      c.req.bufferEnd - (c.req.bufferStart + c.taken) = 0
  | _ => False

/-- `read_from_pipe` is blocked, if at all, in the `write` of `write_from_pipe`. -/
def TailBlocks (env : Env) (c : Conn) : Prop :=
  c.req.status = .pipeRead ∧ env.pipeRead ≠ .again

/-- The flush goes through. Either it leaves bytes in the buffer, and the handler is blocked by
something else; or it leaves none, and `read_from_pipe` is blocked by the socket. -/
def WaitsWrongly (cfg : Config) (env : Env) (c : Conn) : Prop :=
  FlushOk c ∧ ((LeavesOutput c ∧ BlocksElsewhere cfg env c) ∨ (¬LeavesOutput c ∧ TailBlocks env c))

/-- A handler that finds bytes in the buffer is blocked by the socket or elsewhere. -/
lemma blockingCall_eq_socketWrite_iff {cfg : Config} {env : Env} {c d : Conn}
    (hflush : flushFirst c = (1, d)) (hend : d.req.bufferEnd = c.req.bufferEnd)
    (hstart : d.req.bufferStart = c.req.bufferStart + c.taken) :
    .socketWrite = blockingCall cfg env c ↔ ¬BlocksElsewhere cfg env c := by
  rw [blockingCall, BlocksElsewhere, hflush, if_neg (not_not_intro rfl), hend, hstart]
  cases c.req.status <;> simp

/-- A handler that finds the buffer empty is blocked in the call that `block_request` arms, but
for `read_from_pipe`. -/
lemma statusWait_eq_blockingCall_iff {cfg : Config} {env : Env} {c d : Conn}
    (hflush : flushFirst c = (1, d)) (hend : d.req.bufferEnd = 0) :
    statusWait cfg env c.req.status = blockingCall cfg env c ↔ ¬TailBlocks env c := by
  rw [blockingCall, TailBlocks, hflush, if_neg (not_not_intro rfl), hend, Nat.zero_sub]
  cases c.req.status <;> simp [statusWait]

lemma blockRequest_squash (cfg : Config) (sigterm : Bool) (c : Conn) :
    blockRequest cfg (if sigterm then c.squashKa else c).req = blockRequest cfg c.req := by
  cases sigterm <;> rfl

/-- A visit that blocks waits for what has blocked it, unless it is of one of the two kinds. -/
lemma processRequest_waits_iff {cfg : Config} {env : Env} {c : Conn}
    (h : (processRequest cfg env c).1 = -1) :
    blockRequest cfg (processRequest cfg env c).2.req = blockingCall cfg env c ↔
      ¬WaitsWrongly cfg env c := by
  rcases flushFirst_cases c with ⟨hzero, -⟩ | ⟨t, hend, hsome, hagain, hflush⟩ |
    ⟨t, es, s, e, hflush, hok, -⟩
  · rw [processRequest] at h
    dsimp only at h
    rw [hzero, if_neg (by decide), hzero] at h
    exact absurd h (by decide)
  · -- the flush is blocked, and the buffer is not empty
    have hnot : ¬FlushOk c := by
      rintro (hzero | hzero | ⟨n, hn⟩)
      · exact hend hzero
      · exact hsome hzero
      · rw [hn] at hagain
        cases hagain
    rw [processRequest_of_blocked hflush, blockRequest_squash, blockingCall, hflush,
      if_pos (show (-1 : ℤ) ≠ 1 by decide)]
    exact iff_of_true (blockRequest_of_output hend) fun hwrong => hnot hwrong.1
  rw [processRequest_of_flush hflush] at h ⊢
  have hlive : c.req.status.code < ReqStatus.timedOut.code := by
    by_contra hlate
    unfold handleStatus at h
    cases hs : c.req.status <;> rw [hs] at hlate <;> first
      | exact hlate (by decide)
      | (dsimp only [Conn.cursors] at h; rw [hs] at h; exact absurd h (by simp))
  obtain ⟨hstatus, hleft⟩ := flushFirst_leaves hlive hflush
  rw [blockRequest_squash, handleStatus_armed h, hstatus]
  rcases hleft with ⟨hleaves, hend, hstart⟩ | ⟨hleaves, hend⟩
  · rw [if_pos (hend.trans_ne hleaves.1), blockingCall_eq_socketWrite_iff hflush hend hstart,
      WaitsWrongly]
    simp [hleaves, hok hlive]
  · rw [if_neg (not_not_intro hend), statusWait_eq_blockingCall_iff hflush hend, WaitsWrongly]
    simp [hleaves, hok hlive]

/-! ### Runs -/

/-- The connection as a visit finds it. -/
def Conn.visited (env : Env) (c : Conn) : Conn := { c with tape := env.sock }

/-- If the visit blocks the request, it waits for what has blocked it. -/
def WaitsForBlocker (cfg : Config) (c : Conn) : Input → Prop
  | .visit env => c.free = false → (processRequest cfg env (c.visited env)).1 = -1 →
      blockRequest cfg (step cfg c (.visit env)).req = blockingCall cfg env (c.visited env)
  | _ => True

/-- If the visit blocks the request, it is of neither of the two kinds. -/
def BlocksCleanly (cfg : Config) (c : Conn) : Input → Prop
  | .visit env => c.free = false → (processRequest cfg env (c.visited env)).1 = -1 →
      ¬WaitsWrongly cfg env (c.visited env)
  | _ => True

lemma waitsForBlocker_iff (cfg : Config) (c : Conn) (i : Input) :
    WaitsForBlocker cfg c i ↔ BlocksCleanly cfg c i := by
  cases i with
  | visit env =>
      refine forall_congr' fun hfree => forall_congr' fun hret => ?_
      have hvisit : step cfg c (.visit env) = (processRequest cfg env (c.visited env)).2 := by
        rw [step, hfree]
        exact visit_of_ret (eq_mk_snd hret) (Or.inr rfl)
      rw [hvisit]
      exact processRequest_waits_iff hret
  | expire timedOut => exact Iff.rfl
  | accept env fd localIp remoteIp port tooMany => exact Iff.rfl

/-- **A blocked request waits for what has blocked it**, in all visits of a run, if and only if
no visit that blocks leaves output behind a blocked read or a blocked file, and none is blocked
by the socket below `read_from_pipe` with its buffer flushed. -/
theorem blocked_waits_iff (cfg : Config) (c : Conn) (is : List Input) :
    Run.Allowed (step cfg) (WaitsForBlocker cfg) c is ↔
      Run.Allowed (step cfg) (BlocksCleanly cfg) c is :=
  Run.allowed_congr (waitsForBlocker_iff cfg) c is

/-! ### A run in which it does not -/

/-- A server with a script. -/
def scriptServer : Config where
  documentRoot := some (str "/w")
  mimeTypes := [(str "cgi", cgiMimeType)]

/-- A script is asked for and started, and its header and the first of its output are sent;
then there is more output, and the socket is full. -/
def scriptRun : List Input :=
  [.accept {} 4 [] [] 0 false,
   .visit { sockRead := .data (str "GET /x.cgi HTTP/1.0\r\n\r\n") },
   .visit { pipe := some (5, 6), forkOk := true },
   .visit { pipeRead := .data (str "Content-Type: a\n\nbody"), sock := [.accept 4096] },
   .visit { pipeRead := .data (str "more") }]

/-- The socket has blocked the request, and the request waits for the script. -/
theorem blocked_waits_for_script :
    ¬Run.Allowed (step scriptServer) (WaitsForBlocker scriptServer) Conn.initial scriptRun := by
  rintro ⟨-, -, -, -, hwaits, -⟩
  have hcall := hwaits (by decide +kernel) (by decide +kernel)
  exact absurd hcall (by decide +kernel)

end Yabwf
