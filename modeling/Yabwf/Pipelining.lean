import Yabwf.Waiting

/-!
Requests that arrive together.

* `scanStatus`, `HasHeader`: the bytes of a header up to its blank line, or an `HTTP/0.9`
  request line.
* `Recycles`: `free_request` keeps the connection.
* `pipelined_not_parked_iff`: it never parks a request whose header has arrived, exactly if no
  bytes of that kind are left when it recycles one.
-/

namespace Yabwf

open Memory

/-! ### Complete headers -/

/-- The status that `read_header` reaches on bytes that it does not refuse. -/
def scanStatus (s : ReqStatus) (bs : Bytes) : ReqStatus := bs.foldl headerStatus s

/-- The first line, without its end. -/
def firstLine (bs : Bytes) : Option Bytes :=
  if 10 ∈ bs then some ((bs.takeWhile (· != 10)).rdropWhile (· == 13)) else none

/-- A request line without a version, or with the version of `HTTP/0.9`. -/
def IsOldLine (line : Bytes) : Prop :=
  ∃ method, parseMethod line = some method ∧ method ≠ .head ∧
    parseVersion (((line.drop (if method = .get then 4 else 5)).dropWhile (· == 32)).dropWhile
      (· != 32)) = some .http09

/-- The bytes begin with a complete header: there is a blank line, or the first line is the
whole request. -/
def HasHeader (bs : Bytes) : Prop :=
  scanStatus .readHeader bs = .bodyRead ∨ ∃ line, firstLine bs = some line ∧ IsOldLine line

/-! ### What `free_request` carries over -/

/-- The bytes that a request begins with. -/
def Request.carried (r : Request) : Bytes := r.clientStream.slice 0 r.clientStreamPos

lemma sanitizeRequest_carried (cfg : Config) (r : Request) :
    (sanitizeRequest cfg false r).carried = r.restOfStream := by
  have hself := Mem.slice_store_self r.clientStream 0 r.restOfStream
  rw [Request.restOfStream, Mem.length_slice] at hself
  exact hself

/-- Whether `free_request` keeps the connection, from what it starts with: the connection is to
be kept, and the flush empties the buffer or finds the socket full. -/
def Recycles (c : Conn) : Prop :=
  c.req.KeepsConnection ∧ (c.req.bufferEnd = 0 ∨ (c.req.bytesToWrite ≠ 0 ∧ c.pop.1 = .again) ∨
    ((c.req.bytesToWrite = 0 ∨ ∃ n, c.pop.1 = .accept n) ∧
      c.req.bufferStart + c.taken = c.req.bufferEnd))

lemma releasePlace_eq_block_iff (r : Request) :
    releasePlace r = .block .socketRead ↔ r.KeepsConnection := by
  rw [releasePlace]
  split_ifs with hkeep <;> simp [hkeep]

lemma releaseRequest_of_keeps {cfg : Config} {c : Conn} (h : c.req.KeepsConnection) :
    (releaseRequest cfg c).req.carried = c.req.restOfStream := by
  rcases releaseRequest_cases cfg c with ⟨n, -, heq⟩ | ⟨n, hnot, -⟩
  · rw [heq]
    exact sanitizeRequest_carried cfg c.req
  · exact absurd h hnot

/-- A request that its flush has ended keeps what it had. -/
lemma keeps_done {c d : Conn} (hlive : c.req.status.code < ReqStatus.timedOut.code)
    (hstatus : d.req.status = .done) (hka : d.req.keepalive = c.req.keepalive)
    (hrs : d.req.responseStatus = c.req.responseStatus) (hk : d.req.kacount = c.req.kacount) :
    d.req.KeepsConnection ↔ c.req.KeepsConnection := by
  rw [Request.KeepsConnection, Request.KeepsConnection, hstatus, hka, hrs, hk]
  exact and_congr_left fun _ => iff_of_true (by decide) hlive

lemma setStatus_taken (s : ReqStatus) (c : Conn) : (c.setStatus s).taken = c.taken := by
  rw [Conn.taken, Conn.taken, setStatus_pop]
  rfl

/-- `free_request` parks a request exactly if it keeps the connection, and then with the bytes
that had not been parsed. -/
lemma freeRequest_parks (cfg : Config) (c : Conn) :
    (freeRequestPlace c = .block .socketRead ↔ Recycles c) ∧
    (freeRequestPlace c = .block .socketRead →
      (freeRequest cfg c).req.carried = c.req.restOfStream) := by
  unfold freeRequestPlace freeRequest
  by_cases hflush : c.req.bufferEnd ≠ 0 ∧ c.req.status.code < ReqStatus.timedOut.code
  swap
  · rw [if_neg hflush, if_neg hflush, releasePlace_eq_block_iff]
    refine ⟨⟨fun h => ⟨h, Or.inl ?_⟩, fun h => h.1⟩, fun h => releaseRequest_of_keeps h⟩
    exact not_not.mp fun hne => hflush ⟨hne, h.1⟩
  rw [if_pos hflush, if_pos hflush]
  obtain ⟨hend, hlive⟩ := hflush
  have hleaves := @reqFlush_leaves (c.setStatus .done) (lt_irrefl _)
  rw [setStatus_pop, setStatus_taken] at hleaves
  rcases reqFlush_cases (c.setStatus .done) with
    ⟨hret, hwhy⟩ | ⟨t, hsome, hagain, hres⟩ | ⟨t, es, s, e, hok, hres⟩
  · -- the socket is broken, and the request is given up
    generalize reqFlush (c.setStatus .done) = res at hret ⊢
    obtain ⟨i, d⟩ := res
    dsimp only at hret ⊢
    have hdead : ¬Request.KeepsConnection (d.setStatus .dead).req := fun h =>
      absurd h.1 (show ¬ReqStatus.dead.code < ReqStatus.timedOut.code by decide)
    rw [if_pos hret, if_pos hret, releasePlace_eq_block_iff]
    refine ⟨iff_of_false hdead ?_, fun h => absurd h hdead⟩
    obtain ⟨hsome, hfail⟩ := hwhy.resolve_left (lt_irrefl _)
    rw [setStatus_pop] at hfail
    rintro ⟨-, hzero | ⟨-, hagain⟩ | ⟨hzero | ⟨n, hn⟩, -⟩⟩
    · exact hend hzero
    · rw [hagain] at hfail
      rcases hfail with hfail | hfail <;> cases hfail
    · exact hsome hzero
    · rw [hn] at hfail
      rcases hfail with hfail | hfail <;> cases hfail
  · rw [setStatus_pop] at hagain
    rw [hres]
    dsimp only
    rw [if_neg (by decide), if_neg (by decide), if_neg (by decide), if_neg (by decide),
      releasePlace_eq_block_iff]
    have hkeeps : ((c.setStatus .done).setTape t).req.KeepsConnection ↔ c.req.KeepsConnection :=
      keeps_done hlive rfl rfl rfl rfl
    refine ⟨hkeeps.trans ⟨fun h => ⟨h, Or.inr (Or.inl ⟨hsome, hagain⟩)⟩, fun h => h.1⟩, ?_⟩
    exact fun h => releaseRequest_of_keeps h
  · rw [setStatus_pop] at hok
    obtain ⟨-, hleft⟩ := hleaves hok
    rw [hres] at hleft ⊢
    have hkeeps : ((c.setStatus .done).cursors t es s e).req.KeepsConnection ↔
        c.req.KeepsConnection := keeps_done hlive rfl rfl rfl rfl
    dsimp only at hleft ⊢
    have hneg : ¬(e : ℤ) = -2 := by omega
    rw [if_neg hneg, if_neg hneg]
    rcases hleft with ⟨hne, hkept, -⟩ | ⟨heq, hzero⟩
    · -- bytes are left, and the request stays ready
      have hpos : (0 : ℤ) < (e : ℤ) := by
        have he : e = c.req.bufferEnd := hkept
        omega
      rw [if_pos hpos, if_pos hpos]
      refine ⟨iff_of_false (by decide) ?_, fun h => by cases h⟩
      rintro ⟨-, hzero | ⟨hsome, hagain⟩ | ⟨-, heq⟩⟩
      · exact hend hzero
      · rcases hok with hzero | ⟨n, hn⟩
        · exact hsome hzero
        · rw [hn] at hagain
          cases hagain
      · exact hne heq
    · have hpos : ¬(0 : ℤ) < (e : ℤ) := by
        have he : e = 0 := hzero
        omega
      rw [if_neg hpos, if_neg hpos, releasePlace_eq_block_iff]
      refine ⟨hkeeps.trans ⟨fun h => ⟨h, Or.inr (Or.inr ⟨hok, heq⟩)⟩, fun h => h.1⟩, ?_⟩
      exact fun h => releaseRequest_of_keeps h

/-! ### Runs -/

/-- A request that the visit recycles is parked only if its header is still to come. -/
def ParksIncomplete (cfg : Config) (c : Conn) : Input → Prop
  | .visit env => c.free = false → (processRequest cfg env (c.visited env)).1 = 0 →
      freeRequestPlace (processRequest cfg env (c.visited env)).2 = .block .socketRead →
        ¬HasHeader (step cfg c (.visit env)).req.carried
  | _ => True

/-- If the visit recycles the request, the bytes that are left are no complete header. -/
def LeavesIncomplete (cfg : Config) (c : Conn) : Input → Prop
  | .visit env => c.free = false → (processRequest cfg env (c.visited env)).1 = 0 →
      Recycles (processRequest cfg env (c.visited env)).2 →
        ¬HasHeader (processRequest cfg env (c.visited env)).2.req.restOfStream
  | _ => True

lemma parksIncomplete_iff (cfg : Config) (c : Conn) (i : Input) :
    ParksIncomplete cfg c i ↔ LeavesIncomplete cfg c i := by
  cases i with
  | visit env =>
      refine forall_congr' fun hfree => forall_congr' fun hret => ?_
      have hvisit : step cfg c (.visit env) =
          freeRequest cfg (processRequest cfg env (c.visited env)).2 := by
        rw [step, hfree]
        show visit cfg env c = _
        rw [visit]
        exact if_pos hret
      obtain ⟨hplace, hcarried⟩ := freeRequest_parks cfg (processRequest cfg env (c.visited env)).2
      rw [hvisit, ← hplace]
      exact forall_congr' fun hparked => by rw [hcarried hparked]
  | expire timedOut => exact Iff.rfl
  | accept env fd localIp remoteIp port tooMany => exact Iff.rfl

/-- **Pipelined requests are not parked**, in all visits of a run, if and only if no complete
header is left of the bytes received whenever `free_request` recycles a request. -/
theorem pipelined_not_parked_iff (cfg : Config) (c : Conn) (is : List Input) :
    Run.Allowed (step cfg) (ParksIncomplete cfg) c is ↔
      Run.Allowed (step cfg) (LeavesIncomplete cfg) c is :=
  Run.allowed_congr (parksIncomplete_iff cfg) c is

/-- A server that keeps connections. -/
def keepingServer : Config := { documentRoot := some (str "/w"), kaMax := 2, kaTimeout := 10 }

/-- Two requests arrive in one segment; the first is for a document, which is sent. -/
def pipelinedRun : List Input :=
  [.accept {} 4 [] [] 0 false,
   .visit { sockRead := .data (str "GET /a HTTP/1.1\r\n\r\nGET /b HTTP/1.1\r\n\r\n") },
   .visit { openFile := fun _ => .ok 5 { kind := .regular, size := 3 } fun _ => 97
            mmapOk := true, sock := [.accept 4096] }]

/-- The second is parked. -/
theorem pipelined_parked :
    ¬Run.Allowed (step keepingServer) (ParksIncomplete keepingServer) Conn.initial
      pipelinedRun := by
  rintro ⟨-, -, hparks, -⟩
  refine hparks (by decide +kernel) (by decide +kernel) (by decide +kernel) (Or.inl ?_)
  decide +kernel

end Yabwf
