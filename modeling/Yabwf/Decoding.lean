import Yabwf.Quoted
import Yabwf.Waiting

/-!
How often a target is decoded.

* `headerEnds`, `DecodesOnce`: how often `process_header_end` has been entered for the present
  request, and that it never was more than once.
* `Request.OldPost`: the request that goes on reading a header when `process_header_end` is over.
* `readHeader_ends`, `visit_ends`, `step_ends`: what a visit and a step record of it.
* `decodesOnce_iff`: the runs that decode every target once.
-/

namespace Yabwf

open Memory

/-! ### The record -/

/-- How often `process_header_end` has been entered since a request was last freed. -/
def headerEnds (t : List Event) : ℕ :=
  t.foldl (fun n e => match e with
    | .headerEnd => n + 1
    | .freed _ _ _ => 0
    | _ => n) 0

/-- Never more than once, at any time. -/
def DecodesOnce (c : Conn) : Prop := ∀ t, t <+: c.trace → headerEnds t ≤ 1

lemma headerEnds_headerEnd (t : List Event) :
    headerEnds (t ++ [.headerEnd]) = headerEnds t + 1 := by
  rw [headerEnds, List.foldl_append]
  rfl

lemma headerEnds_freed (t : List Event) (recycled : Bool) (unsent : Bytes) (status : ReqStatus) :
    headerEnds (t ++ [.freed recycled unsent status]) = 0 := by
  rw [headerEnds, List.foldl_append]
  rfl

lemma headerEnds_of_not_mark {e : Event} (h : e.isMark = false) (t : List Event) :
    headerEnds (t ++ [e]) = headerEnds t := by
  rw [headerEnds, List.foldl_append]
  cases e <;> first | rfl | cases h

section

variable {c d : Conn}

lemma decodesOnce_emit (e : Event) :
    DecodesOnce (c.emit e) ↔ DecodesOnce c ∧ headerEnds (c.trace ++ [e]) ≤ 1 := by
  simp only [DecodesOnce, Conn.emit_trace, List.prefix_concat_iff]
  constructor
  · intro h
    exact ⟨fun t ht => h t (Or.inr ht), h _ (Or.inl rfl)⟩
  · rintro ⟨h, hlast⟩ t (rfl | ht)
    · exact hlast
    · exact h t ht

/-- At the end there is at most one. -/
lemma DecodesOnce.le (h : DecodesOnce c) : headerEnds c.trace ≤ 1 := h _ (List.prefix_refl _)

/-- What is not recorded does not count. -/
lemma Quiet.count (h : Quiet c d) : headerEnds d.trace = headerEnds c.trace := by
  obtain ⟨es, htrace, hes⟩ := h.events
  rw [htrace]
  clear htrace
  induction es using List.reverseRecOn with
  | nil => rw [List.append_nil]
  | append_singleton es e ih =>
      rw [← List.append_assoc, headerEnds_of_not_mark (hes e (by simp)),
        ih fun e' he' => hes e' (List.mem_append_left _ he')]

lemma Quiet.decodesOnce (h : Quiet c d) : DecodesOnce d ↔ DecodesOnce c := by
  obtain ⟨es, htrace, hes⟩ := h.events
  clear h
  induction es using List.reverseRecOn generalizing d with
  | nil =>
      rw [List.append_nil] at htrace
      rw [DecodesOnce, DecodesOnce, htrace]
  | append_singleton es e ih =>
      have hes' : ∀ e' ∈ es, e'.isMark = false := fun e' he' => hes e' (List.mem_append_left _ he')
      obtain ⟨e₀, he₀⟩ : ∃ d₀ : Conn, d₀.trace = c.trace ++ es :=
        ⟨{ c with trace := c.trace ++ es }, rfl⟩
      have hd : DecodesOnce d ↔ DecodesOnce (e₀.emit e) := by
        rw [DecodesOnce, DecodesOnce, htrace, Conn.emit_trace, he₀, List.append_assoc]
      rw [hd, decodesOnce_emit, ih he₀ hes', headerEnds_of_not_mark (hes e (by simp)),
        and_iff_left_iff_imp]
      intro hc
      exact ((ih he₀ hes').mpr hc).le

end

/-! ### The header -/

/-- A `POST` of the old protocol: its header is over when its first line is, but `read_header` goes
on behind it. -/
def Request.OldPost (r : Request) : Prop :=
  r.logline = true ∧ r.method = .post ∧ r.httpVersion = .http09

section

variable {c d : Conn}

lemma SameLogline.oldPost {r r' : Request} (h : SameLogline r r') : r'.OldPost ↔ r.OldPost := by
  rw [Request.OldPost, Request.OldPost, h.logline, h.method, h.version]

/-- What a round of the loop leaves of an old `POST`. -/
def StepFirst (c : Conn) : HeaderStep → Prop
  | .more d => d.req.OldPost ↔ c.req.OldPost
  | .loglineEnd d => ¬c.req.OldPost ∧ d.req.httpVersion = .http09
  | _ => True

lemma headerLineEnd_first (cfg : Config) (env : Env) (c : Conn) :
    StepFirst c (headerLineEnd cfg env c) := by
  unfold headerLineEnd
  extract_lets d
  have hd : SameLogline c.req d.req := ⟨rfl, rfl, rfl⟩
  clear_value d
  by_cases hlong : maxHeaderLength ≤ d.req.headerEnd.off - d.req.headerLine.off
  · rw [if_pos hlong]
    trivial
  rw [if_neg hlong]
  cases hline : d.req.logline with
  | true =>
      rw [if_pos rfl]
      rcases heq : processOptionLine cfg env d with ⟨ret, e⟩
      cases ret with
      | false => trivial
      | true => exact (hd.trans (processOptionLine_first heq)).oldPost
  | false =>
      have hnot : ¬c.req.OldPost := fun h => absurd (hd.logline.symm.trans hline ▸ h.1) (by decide)
      rw [if_neg Bool.false_ne_true]
      rcases heq : processLogline cfg env d with ⟨ret, e⟩
      cases ret with
      | false => trivial
      | true =>
          dsimp only
          split_ifs with hold
          · exact ⟨hnot, hold⟩
          · exact iff_of_false (fun h => hold h.2.2) hnot

lemma headerByte_first (cfg : Config) (env : Env) (c : Conn) :
    StepFirst c (headerByte cfg env c) := by
  unfold headerByte
  extract_lets uc d
  have hd : SameLogline c.req d.req := ⟨rfl, rfl, rfl⟩
  clear_value d
  have hend := headerLineEnd_first cfg env d
  split_ifs
  · trivial
  · cases hres : headerLineEnd cfg env d with
    | more e =>
        rw [hres] at hend
        exact hend.trans hd.oldPost
    | loglineEnd e =>
        rw [hres] at hend
        exact ⟨fun h => hend.1 (hd.oldPost.mpr h), hend.2⟩
    | ret value e => trivial
    | blankLine e => trivial
  · trivial
  · exact hd.oldPost

lemma readHeaderLoop_first (cfg : Config) (env : Env) (n : ℕ) (c : Conn) :
    StepFirst c (readHeaderLoop cfg env n c) := by
  induction n generalizing c with
  | zero => exact Iff.rfl
  | succ n ih =>
      have hstep := headerByte_first cfg env c
      rw [readHeaderLoop]
      cases hres : headerByte cfg env c with
      | more d =>
          rw [hres] at hstep
          have hrest := ih d
          dsimp only
          cases hloop : readHeaderLoop cfg env n d with
          | more e =>
              rw [hloop] at hrest
              exact hrest.trans hstep
          | loglineEnd e =>
              rw [hloop] at hrest
              exact ⟨fun h => hrest.1 (hstep.mpr h), hrest.2⟩
          | ret value e => trivial
          | blankLine e => trivial
      | _ =>
          rw [hres] at hstep
          exact hstep

/-- The loop records nothing of the kind. -/
def StepQuiet (c : Conn) : HeaderStep → Prop
  | .more d | .loglineEnd d | .blankLine d => Quiet c d
  | .ret value d => value = 0 ∧ Quiet c d

lemma Parses.quiet (h : Parses c d) : Quiet c d := by
  obtain ⟨_, _, _, _, _, ⟨_, _, _, _, _, _, _, _, _, _, _, _, _, _, _, _, rfl⟩, rfl⟩ := h
  exact Quiet.of_eq rfl rfl

lemma readHeaderLoop_quiet (cfg : Config) (env : Env) (n : ℕ) (c : Conn) :
    StepQuiet c (readHeaderLoop cfg env n c) := by
  have hparses := readHeaderLoop_parses cfg env n c
  cases hres : readHeaderLoop cfg env n c with
  | ret value d =>
      rw [hres] at hparses
      obtain ⟨hret, e, hp, ho⟩ := hparses
      exact ⟨hret, hp.quiet.trans (Quiet.of_outputs ho.outputs)⟩
  | _ =>
      rw [hres] at hparses
      exact hparses.quiet

/-! ### A visit -/

/-- The header goes on, or the request ends or is busy. -/
structure ReadsOn (c : Conn) (res : ℤ × Conn) : Prop where
  quiet : Quiet c res.2
  goes : res.1 = 0 ∨ Busy res.2 ∨ (res.2.req.OldPost ↔ c.req.OldPost)

/-- The header is over. -/
structure EndsHeader (c : Conn) (res : ℤ × Conn) : Prop where
  ends : ∃ d, Quiet c d ∧ Quiet (d.emit .headerEnd) res.2
  goes : res.1 = 0 ∨ Busy res.2 ∨ res.2.req.OldPost

/-- `read_header` comes to the blank line. -/
def BlankLine (cfg : Config) (env : Env) (c : Conn) : Prop :=
  ∃ d, readHeaderLoop cfg env (c.req.clientStreamPos - c.req.parsePos) c = .blankLine d

lemma processHeaderEnd_ends {cfg : Config} {env : Env} (hold : d.req.httpVersion = .http09)
    (hquiet : Quiet c d) : EndsHeader c (processHeaderEnd cfg env d) := by
  refine ⟨⟨d, hquiet, processHeaderEnd_quiet cfg env d⟩, ?_⟩
  by_cases hret : (processHeaderEnd cfg env d).1 = 0
  · exact Or.inl hret
  have hgoes := processHeaderEnd_goesOn hret
  by_cases hpost : (processHeaderEnd cfg env d).2.req.method = .post
  · obtain ⟨hstarted, hlines, hversion, -⟩ := hgoes.post hpost
    exact Or.inr (Or.inr ⟨hlines.logline.trans hstarted, hpost, hversion.trans hold⟩)
  · exact Or.inr (Or.inl (hgoes.busy hpost))

/-- `read_header` reads on, or ends the header: behind the first line of the old protocol, which is
no old `POST` yet, or at the blank line. -/
lemma readHeader_ends (cfg : Config) (env : Env) (c : Conn) :
    (¬BlankLine cfg env c ∧ ReadsOn c (readHeader cfg env c)) ∨
    (¬BlankLine cfg env c ∧ ¬c.req.OldPost ∧ EndsHeader c (readHeader cfg env c)) ∨
    (BlankLine cfg env c ∧ EndsHeader c (readHeader cfg env c)) := by
  have hfirst := readHeaderLoop_first cfg env (c.req.clientStreamPos - c.req.parsePos) c
  have hquiet := readHeaderLoop_quiet cfg env (c.req.clientStreamPos - c.req.parsePos) c
  rw [BlankLine, readHeader]
  generalize readHeaderLoop cfg env (c.req.clientStreamPos - c.req.parsePos) c = res
    at hfirst hquiet ⊢
  cases res with
  | ret value d =>
      have hnot : ¬∃ e, HeaderStep.ret value d = .blankLine e := by simp
      have hreads : ReadsOn c (value, d) := ⟨hquiet.2, Or.inl hquiet.1⟩
      exact Or.inl ⟨hnot, hreads⟩
  | loglineEnd d =>
      have hnot : ¬∃ e, HeaderStep.loglineEnd d = .blankLine e := by simp
      exact Or.inr (Or.inl ⟨hnot, hfirst.1, processHeaderEnd_ends hfirst.2 hquiet⟩)
  | blankLine d =>
      have hends := headerBlankLine_busy cfg env d
      exact Or.inr (Or.inr ⟨⟨d, rfl⟩, ⟨d, hquiet, hends.quiet⟩, hends.busy.imp_right Or.inl⟩)
  | more d =>
      have hd : Quiet c d := hquiet
      have hnot : ¬∃ e, HeaderStep.more d = .blankLine e := by simp
      refine Or.inl ⟨hnot, ?_⟩
      dsimp only
      split_ifs with hcode
      · rcases readHeaderMore_cases env d with ⟨-, heq⟩
          | ⟨-, ⟨-, heq⟩ | ⟨-, heq⟩ | ⟨-, heq⟩ | ⟨b, bs, -, heq⟩⟩
        · rw [heq]
          have hset : Quiet d (d.setResponse 400) := Quiet.of_eq rfl rfl
          exact ⟨hd.trans (hset.trans (die_quiet _)), Or.inl rfl⟩
        · rw [heq]
          exact ⟨hd, Or.inr (Or.inr hfirst)⟩
        · rw [heq]
          exact ⟨hd, Or.inr (Or.inr hfirst)⟩
        · rw [heq]
          exact ⟨hd.trans (Quiet.of_eq rfl rfl), Or.inl rfl⟩
        · rw [heq]
          exact ⟨hd.trans (Quiet.of_eq rfl rfl), Or.inr (Or.inr hfirst)⟩
      · exact ⟨hd, Or.inr (Or.inl (not_lt.mp hcode))⟩

/-- In the visit, an old `POST` comes to a blank line behind its header. -/
def ComesBack (cfg : Config) (env : Env) (c : Conn) : Prop :=
  c.req.OldPost ∧ (flushFirst (c.visited env)).1 = 1 ∧ ¬Busy (flushFirst (c.visited env)).2 ∧
    BlankLine cfg env (flushFirst (c.visited env)).2

/-- A visit to a request that does not end its header. -/
structure VisitsOn (c : Conn) (res : ℤ × Conn) : Prop where
  quiet : Quiet c res.2
  goes : res.1 = 0 ∨ Busy res.2 ∨ ¬Busy c ∧ (res.2.req.OldPost ↔ c.req.OldPost)

lemma Outputs.oldPost (h : Outputs c d) : d.req.OldPost ↔ c.req.OldPost :=
  SameLogline.oldPost ⟨h.logline, h.method, h.httpVersion⟩

/-- A visit ends no header, or it ends the one of a request that is not busy: once more if an old
`POST` comes back. -/
lemma processRequest_ends (cfg : Config) (env : Env) (c : Conn) :
    (¬ComesBack cfg env c ∧ VisitsOn c (processRequest cfg env (c.visited env))) ∨
    (¬Busy c ∧ (ComesBack cfg env c ↔ c.req.OldPost) ∧
      EndsHeader c (processRequest cfg env (c.visited env))) := by
  have hout := flushFirst_outputs (c.visited env)
  have hvisited : Quiet c (c.visited env) := Quiet.of_eq rfl rfl
  have hflush : Quiet c (flushFirst (c.visited env)).2 := hvisited.trans (Quiet.of_outputs hout)
  have hold : (flushFirst (c.visited env)).2.req.OldPost ↔ c.req.OldPost := hout.oldPost
  have hkept : Busy c → Busy (flushFirst (c.visited env)).2 := (Moves.of_outputs hout).busy
  rw [ComesBack, processRequest]
  generalize flushFirst (c.visited env) = res at hflush hold hkept ⊢
  obtain ⟨ret, d⟩ := res
  dsimp only at hflush hold hkept ⊢
  have hsquash (e : Conn) : Quiet e (if env.sigterm then e.squashKa else e) ∧
      (Busy e → Busy (if env.sigterm then e.squashKa else e)) ∧
      ((if env.sigterm then e.squashKa else e).req.OldPost ↔ e.req.OldPost) := by
    split_ifs
    · exact ⟨Quiet.of_eq rfl rfl, id, Iff.rfl⟩
    · exact ⟨Quiet.refl e, id, Iff.rfl⟩
  by_cases hret : ret = 1
  swap
  · rw [if_neg hret]
    refine Or.inl ⟨fun h => hret h.2.1, hflush.trans (hsquash d).1, Or.inr ?_⟩
    by_cases hc : Busy c
    · exact Or.inl ((hsquash d).2.1 (hkept hc))
    · exact Or.inr ⟨hc, (hsquash d).2.2.trans hold⟩
  rw [if_pos hret]
  by_cases hd : Busy d
  · have hhandled := handleStatus_busy cfg env hd
    refine Or.inl ⟨fun h => h.2.2.1 hd, hflush.trans (hhandled.quiet.trans (hsquash _).1), ?_⟩
    exact hhandled.busy.imp_right fun h => Or.inl ((hsquash _).2.1 h)
  have hc : ¬Busy c := fun h => hd (hkept h)
  have hread : handleStatus cfg env d = readHeader cfg env d := by
    have hcode : d.req.status.code < ReqStatus.bodyRead.code := not_le.mp hd
    rw [handleStatus]
    cases hstatus : d.req.status <;> rw [hstatus] at hcode <;>
      first
      | rfl
      | exact absurd hcode (by decide)
  rw [hread]
  have hends (h : EndsHeader d (readHeader cfg env d)) : EndsHeader c ((readHeader cfg env d).1,
      if env.sigterm then (readHeader cfg env d).2.squashKa else (readHeader cfg env d).2) := by
    obtain ⟨⟨e, hquiet, hemit⟩, hgoes⟩ := h
    refine ⟨⟨e, hflush.trans hquiet, hemit.trans (hsquash _).1⟩, ?_⟩
    exact hgoes.imp_right (Or.imp (hsquash _).2.1 (hsquash _).2.2.mpr)
  rcases readHeader_ends cfg env d with ⟨hblank, hreads⟩ | ⟨hblank, hnot, h⟩ | ⟨hblank, h⟩
  · refine Or.inl ⟨fun h => hblank h.2.2.2, hflush.trans (hreads.quiet.trans (hsquash _).1), ?_⟩
    exact hreads.goes.imp_right (Or.imp (hsquash _).2.1
      fun h => ⟨hc, (hsquash _).2.2.trans (h.trans hold)⟩)
  · exact Or.inr ⟨hc, iff_of_false (fun h => hblank h.2.2.2) (fun h => hnot (hold.mpr h)), hends h⟩
  · exact Or.inr ⟨hc, ⟨fun h => h.1, fun h => ⟨h, hret, hd, hblank⟩⟩, hends h⟩

/-! ### The runs -/

lemma EndsHeader.count {res : ℤ × Conn} (h : EndsHeader c res) :
    headerEnds res.2.trace = headerEnds c.trace + 1 := by
  obtain ⟨⟨d, hquiet, hemit⟩, -⟩ := h
  rw [hemit.count, Conn.emit_trace, headerEnds_headerEnd, hquiet.count]

lemma EndsHeader.decodesOnce {res : ℤ × Conn} (h : EndsHeader c res) :
    DecodesOnce res.2 ↔ DecodesOnce c ∧ headerEnds c.trace = 0 := by
  obtain ⟨⟨d, hquiet, hemit⟩, -⟩ := h
  rw [hemit.decodesOnce, decodesOnce_emit, hquiet.decodesOnce, headerEnds_headerEnd,
    hquiet.count]
  exact and_congr_right fun _ => by omega

/-- What the record says of a request: one on `request_free` has been freed, and one that reads a
header has come to the end of it if it is an old `POST`. -/
structure Recorded (c : Conn) : Prop where
  free : c.free = true → headerEnds c.trace = 0
  used : c.free = false → Busy c ∨ (headerEnds c.trace = 1 ↔ c.req.OldPost)

/-- A request that has been freed. -/
lemma releaseRequest_ends (cfg : Config) (c : Conn) :
    (DecodesOnce (releaseRequest cfg c) ↔ DecodesOnce c) ∧ Recorded (releaseRequest cfg c) := by
  obtain ⟨recycled, htrace⟩ := releaseRequest_trace cfg c
  have hzero : headerEnds (releaseRequest cfg c).trace = 0 := by
    rw [htrace, headerEnds_freed]
  constructor
  · have hclosing : Quiet c { c with trace := c.trace ++ c.req.closing } := by
      refine ⟨⟨c.req.closing, rfl, ?_⟩, rfl⟩
      rw [Request.closing]
      split_ifs <;> simp [Event.isMark]
    have hfreed : DecodesOnce (releaseRequest cfg c) ↔ DecodesOnce
        (({ c with trace := c.trace ++ c.req.closing } : Conn).emit
          (.freed recycled c.req.pending c.req.status)) := by
      rw [DecodesOnce, DecodesOnce, htrace]
      rfl
    rw [hfreed, decodesOnce_emit, hclosing.decodesOnce, headerEnds_freed, and_iff_left_iff_imp]
    exact fun _ => Nat.zero_le _
  · refine ⟨fun _ => hzero, fun hfree => Or.inr (iff_of_false (by omega) fun h => ?_)⟩
    rcases releaseRequest_cases cfg c with ⟨n, -, heq⟩ | ⟨n, -, heq⟩
    · rw [heq] at h
      cases h.1
    · rw [heq] at hfree
      cases hfree

lemma freeRequest_ends (cfg : Config) (h : c.free = false) :
    (DecodesOnce (freeRequest cfg c) ↔ DecodesOnce c) ∧ Recorded (freeRequest cfg c) := by
  obtain ⟨d, hout, ⟨hdone, heq⟩ | heq⟩ := freeRequest_cases cfg c
  · have hbusy : Busy d := (by decide : ReqStatus.bodyRead.code ≤ ReqStatus.done.code).trans hdone
    have hquiet := Quiet.of_outputs hout
    rw [heq]
    refine ⟨hquiet.decodesOnce, fun hfree => ?_, fun _ => Or.inl hbusy⟩
    rw [hquiet.free, h] at hfree
    cases hfree
  · rw [heq]
    obtain ⟨hiff, hrecorded⟩ := releaseRequest_ends cfg d
    exact ⟨hiff.trans (Quiet.of_outputs hout).decodesOnce, hrecorded⟩

/-- What `process_requests` makes of the return value. -/
def finishVisit (cfg : Config) (res : ℤ × Conn) : Conn :=
  if res.1 = 0 then freeRequest cfg res.2
  else if res.1 = 1 ∨ res.1 = -1 then res.2
  else res.2.die

lemma visit_eq_finishVisit (cfg : Config) (env : Env) (c : Conn) :
    visit cfg env c = finishVisit cfg (processRequest cfg env (c.visited env)) := rfl

lemma finishVisit_decodesOnce (cfg : Config) {res : ℤ × Conn} (hfree : res.2.free = false) :
    DecodesOnce (finishVisit cfg res) ↔ DecodesOnce res.2 := by
  rw [finishVisit]
  split_ifs
  · exact (freeRequest_ends cfg hfree).1
  · exact Iff.rfl
  · exact (die_quiet res.2).decodesOnce

/-- The rest of a visit leaves what the record says. -/
lemma finishVisit_recorded (cfg : Config) {res : ℤ × Conn} (hfree : res.2.free = false)
    (h : res.1 = 0 ∨ Busy res.2 ∨ (headerEnds res.2.trace = 1 ↔ res.2.req.OldPost)) :
    Recorded (finishVisit cfg res) := by
  rw [finishVisit]
  by_cases hzero : res.1 = 0
  · rw [if_pos hzero]
    exact (freeRequest_ends cfg hfree).2
  rw [if_neg hzero]
  have hnot {p : Prop} : res.2.free = true → p := fun hf => absurd (hfree.symm.trans hf) (by decide)
  split_ifs
  · exact ⟨hnot, fun _ => h.resolve_left hzero⟩
  · have hdead : Busy res.2.die := (by decide : ReqStatus.bodyRead.code ≤ ReqStatus.dead.code)
    exact ⟨hnot, fun _ => Or.inl hdead⟩

/-- **A visit** decodes no target for a second time, unless an old `POST` comes back. -/
lemma visit_ends (cfg : Config) (env : Env) (hfree : c.free = false) (hrec : Recorded c)
    (honce : DecodesOnce c) :
    (DecodesOnce (visit cfg env c) ↔ ¬ComesBack cfg env c) ∧
      (DecodesOnce (visit cfg env c) → Recorded (visit cfg env c)) := by
  have hle := honce.le
  rw [visit_eq_finishVisit]
  have hends := processRequest_ends cfg env c
  generalize processRequest cfg env (c.visited env) = res at hends ⊢
  rcases hends with ⟨hback, hquiet, hgoes⟩ | ⟨hbusy, hback, hends⟩
  · have hfree' := hquiet.free.trans hfree
    have hres : res.1 = 0 ∨ Busy res.2 ∨ (headerEnds res.2.trace = 1 ↔ res.2.req.OldPost) := by
      refine hgoes.imp_right (Or.imp_right ?_)
      rintro ⟨hc, hold⟩
      rw [hquiet.count, hold]
      exact (hrec.used hfree).resolve_left hc
    rw [finishVisit_decodesOnce cfg hfree', hquiet.decodesOnce]
    exact ⟨iff_of_true honce hback, fun _ => finishVisit_recorded cfg hfree' hres⟩
  · have hused := (hrec.used hfree).resolve_left hbusy
    have hfree' : res.2.free = false := by
      obtain ⟨d, hquiet, hemit⟩ := hends.ends
      exact hemit.free.trans (hquiet.free.trans hfree)
    have hcount := hends.count
    rw [finishVisit_decodesOnce cfg hfree', hends.decodesOnce, hback, ← hused,
      and_iff_right honce]
    refine ⟨by omega, fun hzero => finishVisit_recorded cfg hfree' ?_⟩
    refine hends.goes.imp_right (Or.imp_right fun hold => iff_of_true ?_ hold)
    rw [hcount, hzero]

/-- What has happened twice stays so. -/
lemma visit_decodesOnce (cfg : Config) (env : Env) (hfree : c.free = false)
    (h : DecodesOnce (visit cfg env c)) : DecodesOnce c := by
  rw [visit_eq_finishVisit] at h
  have hends := processRequest_ends cfg env c
  generalize processRequest cfg env (c.visited env) = res at h hends
  rcases hends with ⟨-, hquiet, -⟩ | ⟨-, -, hends⟩
  · rw [finishVisit_decodesOnce cfg (hquiet.free.trans hfree)] at h
    exact hquiet.decodesOnce.mp h
  · have hfree' : res.2.free = false := by
      obtain ⟨d, hquiet, hemit⟩ := hends.ends
      exact hemit.free.trans (hquiet.free.trans hfree)
    rw [finishVisit_decodesOnce cfg hfree'] at h
    exact (hends.decodesOnce.mp h).1

/-- A new request has not begun, or is refused. -/
lemma getRequest_cases (cfg : Config) (env : Env) (fd : ℕ) (localIp remoteIp : Bytes) (port : ℕ)
    (tooMany : Bool) (c : Conn) : ∃ d : Conn, d.trace = c.trace ∧ d.free = false ∧ ¬d.req.OldPost ∧
      Quiet d (getRequest cfg env fd localIp remoteIp port tooMany c) ∧
      (getRequest cfg env fd localIp remoteIp port tooMany c = d ∨
        Busy (getRequest cfg env fd localIp remoteIp port tooMany c)) := by
  unfold getRequest
  extract_lets d e
  refine ⟨e, rfl, rfl, fun h => (by cases h.1), ?_⟩
  clear_value e d
  split_ifs
  · have hupd : Quiet e (e.upd fun r => { r with httpVersion := .http10, method := .get }) :=
      Quiet.of_eq rfl rfl
    have hpage := hupd.trans (Quiet.of_outputs (sendRServiceUnavailable_outputs cfg env _))
    generalize sendRServiceUnavailable cfg env _ = d' at hpage ⊢
    exact ⟨hpage.trans (Quiet.of_eq rfl rfl),
      Or.inr (by decide : ReqStatus.bodyRead.code ≤ ReqStatus.done.code)⟩
  · exact ⟨Quiet.refl e, Or.inl rfl⟩

lemma getRequest_decodesOnce (cfg : Config) (env : Env) (fd : ℕ) (localIp remoteIp : Bytes)
    (port : ℕ) (tooMany : Bool) (c : Conn) :
    DecodesOnce (getRequest cfg env fd localIp remoteIp port tooMany c) ↔ DecodesOnce c := by
  obtain ⟨d, htrace, -, -, hquiet, -⟩ := getRequest_cases cfg env fd localIp remoteIp port tooMany c
  rw [hquiet.decodesOnce, DecodesOnce, DecodesOnce, htrace]

lemma getRequest_recorded (cfg : Config) (env : Env) (fd : ℕ) (localIp remoteIp : Bytes) (port : ℕ)
    (tooMany : Bool) (hfree : c.free = true) (hrec : Recorded c) :
    Recorded (getRequest cfg env fd localIp remoteIp port tooMany c) := by
  obtain ⟨d, htrace, hused, hnew, hquiet, hbusy⟩ :=
    getRequest_cases cfg env fd localIp remoteIp port tooMany c
  refine ⟨fun h => ?_, fun _ => ?_⟩
  · rw [hquiet.free, hused] at h
    cases h
  · rcases hbusy with heq | hbusy
    · rw [heq, htrace, hrec.free hfree]
      exact Or.inr (iff_of_false (by decide) hnew)
    · exact Or.inl hbusy

/-- No old `POST` comes back. -/
def NeverBack (cfg : Config) (c : Conn) : Input → Prop
  | .visit env => c.free = false → ¬ComesBack cfg env c
  | _ => True

lemma step_ends (cfg : Config) (i : Input) (hrec : Recorded c) (honce : DecodesOnce c) :
    (DecodesOnce (step cfg c i) ↔ NeverBack cfg c i) ∧
      (DecodesOnce (step cfg c i) → Recorded (step cfg c i)) := by
  cases i with
  | visit env =>
      rw [step, NeverBack]
      cases hfree : c.free with
      | true => exact ⟨iff_of_true honce (by simp), fun _ => hrec⟩
      | false =>
          have hvisit := visit_ends cfg env hfree hrec honce
          exact ⟨hvisit.1.trans (by simp), hvisit.2⟩
  | expire timedOut =>
      have hnever : NeverBack cfg c (.expire timedOut) := trivial
      rw [step]
      cases hfree : c.free with
      | true => exact ⟨iff_of_true honce hnever, fun _ => hrec⟩
      | false =>
          have hlate : Quiet c (c.setStatus .timedOut) := Quiet.of_eq rfl rfl
          have hbusy {d : Conn} (h : Quiet c d) (hd : Busy d) : Recorded d :=
            ⟨fun hf => absurd (hf.symm.trans (h.free.trans hfree)) (by decide), fun _ => Or.inl hd⟩
          cases timedOut with
          | true =>
              exact ⟨iff_of_true (hlate.decodesOnce.mpr honce) hnever, fun _ => hbusy hlate
                (by decide : ReqStatus.bodyRead.code ≤ ReqStatus.timedOut.code)⟩
          | false =>
              exact ⟨iff_of_true ((die_quiet c).decodesOnce.mpr honce) hnever,
                fun _ => hbusy (die_quiet c)
                  (by decide : ReqStatus.bodyRead.code ≤ ReqStatus.dead.code)⟩
  | accept env fd localIp remoteIp port tooMany =>
      have hnever : NeverBack cfg c (.accept env fd localIp remoteIp port tooMany) := trivial
      rw [step]
      cases hfree : c.free with
      | true =>
          have honce' :=
            (getRequest_decodesOnce cfg env fd localIp remoteIp port tooMany c).mpr honce
          exact ⟨iff_of_true honce' hnever,
            fun _ => getRequest_recorded cfg env fd localIp remoteIp port tooMany hfree hrec⟩
      | false => exact ⟨iff_of_true honce hnever, fun _ => hrec⟩

end

/-- What has happened twice stays so. -/
lemma step_decodesOnce (cfg : Config) (i : Input) (c : Conn) (h : DecodesOnce (step cfg c i)) :
    DecodesOnce c := by
  cases i with
  | visit env =>
      rw [step] at h
      cases hfree : c.free with
      | true => rwa [hfree, if_pos rfl] at h
      | false =>
          rw [hfree, if_neg Bool.false_ne_true] at h
          exact visit_decodesOnce cfg env hfree h
  | expire timedOut =>
      have hlate : Quiet c (c.setStatus .timedOut) := Quiet.of_eq rfl rfl
      rw [step] at h
      split_ifs at h
      · exact h
      · exact hlate.decodesOnce.mp h
      · exact (die_quiet c).decodesOnce.mp h
  | accept env fd localIp remoteIp port tooMany =>
      rw [step] at h
      split_ifs at h
      · exact (getRequest_decodesOnce cfg env fd localIp remoteIp port tooMany c).mp h
      · exact h

lemma runs_decodesOnce (cfg : Config) (is : List Input) (c : Conn)
    (h : DecodesOnce (Run.runs (step cfg) c is)) : DecodesOnce c := by
  induction is generalizing c with
  | nil => exact h
  | cons i is ih => exact step_decodesOnce cfg i c (ih (step cfg c i) h)

/-- From any state that the record is right about. -/
lemma runs_ends (cfg : Config) (is : List Input) {c : Conn} (hrec : Recorded c)
    (honce : DecodesOnce c) : DecodesOnce (Run.runs (step cfg) c is) ↔
      Run.Allowed (step cfg) (NeverBack cfg) c is := by
  induction is generalizing c with
  | nil => exact iff_of_true honce trivial
  | cons i is ih =>
      obtain ⟨hiff, hrec'⟩ := step_ends cfg i hrec honce
      rw [Run.runs_cons, Run.Allowed]
      by_cases hnever : NeverBack cfg c i
      · have honce' := hiff.mpr hnever
        rw [ih (hrec' honce') honce', and_iff_right hnever]
      · exact iff_of_false (fun h => hnever (hiff.mp (runs_decodesOnce cfg is _ h)))
          fun h => hnever h.1

/-- **Decoding once**: along a run no target is decoded twice if and only if no old `POST` comes
back to a blank line. -/
theorem decodesOnce_iff (cfg : Config) (is : List Input) :
    DecodesOnce (Run.runs (step cfg) Conn.initial is) ↔
      Run.Allowed (step cfg) (NeverBack cfg) Conn.initial is := by
  refine runs_ends cfg is ⟨fun _ => rfl, fun h => by cases h⟩ fun t ht => ?_
  rw [List.prefix_nil.mp ht]
  decide

/-- A `POST` of the old protocol, with an encoded target and an empty line behind it. -/
def oldPostInputs : List Input :=
  [.accept {} 4 [] [] 0 false, .visit { sockRead := .data (str "POST /%2541\n\n") },
    .visit { mkstemp := some 7 }, .visit { mkstemp := some 8 }]

/-- It is decoded twice. -/
theorem decodesOnce_not : ¬ ∀ cfg is, DecodesOnce (Run.runs (step cfg) Conn.initial is) := by
  intro h
  have htwo := h { documentRoot := some (str "/www"), defaultType := cgiMimeType } oldPostInputs _
    (List.take_prefix 3 _)
  revert htwo
  decide +kernel

end Yabwf
