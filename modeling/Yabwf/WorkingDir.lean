import Yabwf.Get
import Yabwf.Lib.Run

/-!
The working directory of the server while it caches directory listings.

* `System`: what the system calls answer, with the directory that they are called in.
* `indexDirectoryFrom`, `getCachedirFileFrom`: the functions with the working directory.
* `getCachedirFileFrom_fst`: their answer is the one of the model without it.
* `getCachedirFileFrom_snd`: the directory that a request leaves the process in.
* `keepsRoot_iff`: when a sequence of requests leaves the working directory alone.
-/

namespace Yabwf

open Memory

variable {Dir : Type*}

/-- What `chdir` does: it leads to a directory, or it fails. -/
inductive Chdir (Dir : Type*)
  | ok (dir : Dir)
  | denied
  | other
  deriving DecidableEq, Repr

namespace Chdir

/-- The outcome without the directory. -/
def result : Chdir Dir → ChdirResult
  | ok _ => .ok
  | denied => .denied
  | other => .other

/-- The working directory after the call. -/
def leaves : Chdir Dir → Dir → Dir
  | ok dir, _ => dir
  | denied, dir => dir
  | other, dir => dir

end Chdir

/-- What the system calls answer during a request. Those that take a path are told the working
directory that they are called in. -/
structure System (Dir : Type*) where
  /-- The answers that do not depend on the working directory. -/
  env : Env := {}
  openFile : Dir → Bytes → OpenResult
  chdir : Dir → Bytes → Chdir Dir
  /-- `opendir(".")`. -/
  opendirOk : Dir → Bool
  fopenOk : Dir → Bytes → Bool
  /-- The length of the listing, which ends where `readdir` does. -/
  listingBytes : Dir → ℕ
  /-- `open` of the cached listing after it has been written anew. -/
  reopenCache : Dir → Bytes → OpenResult
  serverRoot : Bytes

/-- `index_directory`, and the directory that it leaves the process in. -/
def indexDirectoryFrom (sys : System Dir) (cfg : Config) (dest : Bytes) (dir : Dir) (c : Conn) :
    (Bool × Conn) × Dir :=
  match sys.chdir dir (c.req.pathname.getD []) with
  | .denied => ((false, sendRForbidden cfg sys.env c), dir)
  | .other => ((false, sendRBadRequest cfg sys.env c), dir)
  | .ok dir =>
      if !sys.opendirOk dir then ((false, sendRError cfg sys.env c), dir)
      else if !sys.fopenOk dir dest then ((false, boaPerror cfg sys.env c), dir)
      else
        ((true, c.upd fun r => { r with filesize := sys.listingBytes dir }),
          (sys.chdir dir sys.serverRoot).leaves dir)

/-- `get_cachedir_file`, and the directory that it leaves the process in. -/
def getCachedirFileFrom (sys : System Dir) (cfg : Config) (cachedir : Bytes) (st : Stat)
    (dir : Dir) (c : Conn) : (DirResult × Conn) × Dir :=
  let path := cacheName cachedir st
  let found (fd : ℕ) (st' : Stat) (contents : Mem) (c : Conn) : DirResult × Conn :=
    (.file fd { st' with mtime := st.mtime } contents path,
      c.upd fun r => { r with requestUri := cfg.directoryIndex.getD [] })
  let make (c : Conn) : (DirResult × Conn) × Dir :=
    match indexDirectoryFrom sys cfg path dir c with
    | ((false, c), dir) => ((.ret (-1), c), dir)
    | ((true, c), dir) =>
        match sys.reopenCache dir path with
        | .ok fd st' contents => (found fd st' contents (c.emit (.opened fd)), dir)
        | _ => ((.ret (-1), boaPerror cfg sys.env c), dir)
  match sys.openFile dir path with
  | .ok fd st' contents =>
      let c := c.emit (.opened fd)
      if st.mtime < st'.mtime then (found fd st' contents c, dir)
      else make (c.emit (.closed fd))
  | _ => make c

namespace System

/-- The answers to a request for the directory `path` that finds the process in `dir`. -/
def seen (sys : System Dir) (dir : Dir) (path dest : Bytes) : Env :=
  let inside := (sys.chdir dir path).leaves dir
  let back := (sys.chdir inside sys.serverRoot).leaves inside
  { sys.env with
    openFile := sys.openFile dir
    chdir := (sys.chdir dir path).result
    opendirOk := sys.opendirOk inside
    fopenOk := sys.fopenOk inside dest
    listingBytes := sys.listingBytes inside
    reopenCache := sys.reopenCache back dest }

/-- Whether the cached listing is newer than the directory. -/
def fresh (sys : System Dir) (dir : Dir) (dest : Bytes) (st : Stat) : Bool :=
  match sys.openFile dir dest with
  | .ok _ st' _ => st.mtime < st'.mtime
  | _ => false

/-- The process comes back to `root` from a request that finds it there: no listing has to be
made; or it does not get into the directory; or what it does inside works and `server_root` leads
back; or something inside fails and the directory is `root` itself. -/
def Returns (sys : System Dir) (root : Dir) (path dest : Bytes) (st : Stat) : Prop :=
  sys.fresh root dest st = true ∨ ∀ dir, sys.chdir root path = .ok dir →
    if sys.opendirOk dir ∧ sys.fopenOk dir dest then
      (sys.chdir dir sys.serverRoot).leaves dir = root
    else dir = root

end System

section

variable (sys : System Dir) (cfg : Config)

lemma indexDirectoryFrom_fst (dest : Bytes) (dir : Dir) (c : Conn) :
    (indexDirectoryFrom sys cfg dest dir c).1 =
      indexDirectory cfg (sys.seen dir (c.req.pathname.getD []) dest) c := by
  have hresult : (sys.seen dir (c.req.pathname.getD []) dest).chdir =
      (sys.chdir dir (c.req.pathname.getD [])).result := rfl
  unfold indexDirectoryFrom indexDirectory
  rw [hresult]
  cases hchdir : sys.chdir dir (c.req.pathname.getD []) with
  | denied => rfl
  | other => rfl
  | ok inside =>
      have hopendir : (sys.seen dir (c.req.pathname.getD []) dest).opendirOk =
          sys.opendirOk inside := by rw [System.seen, hchdir]; rfl
      have hfopen : (sys.seen dir (c.req.pathname.getD []) dest).fopenOk =
          sys.fopenOk inside dest := by rw [System.seen, hchdir]; rfl
      have hlisting : (sys.seen dir (c.req.pathname.getD []) dest).listingBytes =
          sys.listingBytes inside := by rw [System.seen, hchdir]; rfl
      simp only [Chdir.result, hopendir, hfopen, hlisting]
      split_ifs <;> rfl

lemma indexDirectoryFrom_snd (dest : Bytes) (dir : Dir) (c : Conn) :
    (indexDirectoryFrom sys cfg dest dir c).2 =
      match sys.chdir dir (c.req.pathname.getD []) with
      | .ok inside =>
          if sys.opendirOk inside ∧ sys.fopenOk inside dest then
            (sys.chdir inside sys.serverRoot).leaves inside
          else inside
      | _ => dir := by
  unfold indexDirectoryFrom
  cases hchdir : sys.chdir dir (c.req.pathname.getD []) with
  | denied => rfl
  | other => rfl
  | ok inside =>
      simp only
      cases sys.opendirOk inside <;> cases sys.fopenOk inside dest <;> rfl

/-- A listing that has been made is looked for in the directory that `server_root` leads to. -/
lemma indexDirectoryFrom_reopen {dest : Bytes} {dir dir' : Dir} {c d : Conn}
    (h : indexDirectoryFrom sys cfg dest dir c = ((true, d), dir')) :
    sys.reopenCache dir' dest = (sys.seen dir (c.req.pathname.getD []) dest).reopenCache := by
  unfold indexDirectoryFrom at h
  cases hchdir : sys.chdir dir (c.req.pathname.getD []) with
  | denied =>
      rw [hchdir] at h
      cases h
  | other =>
      rw [hchdir] at h
      cases h
  | ok inside =>
      simp only [hchdir] at h
      split_ifs at h
      · cases h
      · cases h
      · obtain rfl := (Prod.mk.inj h).2
        rw [System.seen, hchdir]
        rfl

/-- **What a request is answered** is what `getCachedirFile` answers. -/
lemma getCachedirFileFrom_fst (cachedir : Bytes) (st : Stat) (dir : Dir) (c : Conn) :
    (getCachedirFileFrom sys cfg cachedir st dir c).1 =
      getCachedirFile cfg (sys.seen dir (c.req.pathname.getD []) (cacheName cachedir st))
        cachedir st c := by
  unfold getCachedirFileFrom getCachedirFile
  extract_lets dest found makeFrom make
  have hmake : ∀ d : Conn, d.req.pathname = c.req.pathname → (makeFrom d).1 = make d := by
    intro d hd
    have hanswer := indexDirectoryFrom_fst sys cfg dest dir d
    have hreopen {e : Conn} {dir' : Dir}
        (h : indexDirectoryFrom sys cfg dest dir d = ((true, e), dir')) :=
      indexDirectoryFrom_reopen sys cfg h
    rw [hd] at hanswer hreopen
    simp only [makeFrom, make]
    rw [← hanswer]
    rcases hindex : indexDirectoryFrom sys cfg dest dir d with ⟨⟨ret, e⟩, dir'⟩
    cases ret with
    | false => rfl
    | true =>
        simp only
        rw [← hreopen hindex]
        cases sys.reopenCache dir' dest <;> rfl
  have hopen : (sys.seen dir (c.req.pathname.getD []) dest).openFile = sys.openFile dir := rfl
  rw [hopen]
  clear_value makeFrom make
  cases sys.openFile dir dest with
  | ok fd st' contents =>
      simp only
      split_ifs
      · rfl
      · exact hmake _ rfl
  | enoent => exact hmake c rfl
  | eacces => exact hmake c rfl
  | other => exact hmake c rfl

/-- **Where a request leaves the process.** -/
lemma getCachedirFileFrom_snd (cachedir : Bytes) (st : Stat) (dir : Dir) (c : Conn) :
    (getCachedirFileFrom sys cfg cachedir st dir c).2 =
      if sys.fresh dir (cacheName cachedir st) st then dir
      else (indexDirectoryFrom sys cfg (cacheName cachedir st) dir c).2 := by
  unfold getCachedirFileFrom System.fresh
  extract_lets dest found makeFrom
  have hmake : ∀ d : Conn, d.req.pathname = c.req.pathname →
      (makeFrom d).2 = (indexDirectoryFrom sys cfg dest dir c).2 := by
    intro d hd
    have hsame : (indexDirectoryFrom sys cfg dest dir c).2 =
        (indexDirectoryFrom sys cfg dest dir d).2 := by
      rw [indexDirectoryFrom_snd, indexDirectoryFrom_snd, hd]
    rw [hsame]
    simp only [makeFrom]
    rcases indexDirectoryFrom sys cfg dest dir d with ⟨⟨ret, e⟩, dir'⟩
    cases ret with
    | false => rfl
    | true =>
        simp only
        cases sys.reopenCache dir' dest <;> rfl
  clear_value makeFrom
  cases sys.openFile dir dest with
  | ok fd st' contents =>
      simp only [decide_eq_true_eq]
      split_ifs
      · rfl
      · exact hmake _ rfl
  | enoent => exact (hmake c rfl).trans (if_neg Bool.false_ne_true).symm
  | eacces => exact (hmake c rfl).trans (if_neg Bool.false_ne_true).symm
  | other => exact (hmake c rfl).trans (if_neg Bool.false_ne_true).symm

/-- A request that finds the process in `root` leaves it there exactly if it returns. -/
lemma getCachedirFileFrom_returns_iff (cachedir : Bytes) (st : Stat) (root : Dir) (c : Conn) :
    (getCachedirFileFrom sys cfg cachedir st root c).2 = root ↔
      sys.Returns root (c.req.pathname.getD []) (cacheName cachedir st) st := by
  rw [getCachedirFileFrom_snd, System.Returns, indexDirectoryFrom_snd]
  by_cases hfresh : sys.fresh root (cacheName cachedir st) st = true
  · rw [if_pos hfresh]
    exact iff_of_true rfl (Or.inl hfresh)
  rw [if_neg hfresh, or_iff_right hfresh]
  cases sys.chdir root (c.req.pathname.getD []) with
  | denied => exact iff_of_true rfl nofun
  | other => exact iff_of_true rfl nofun
  | ok inside =>
      simp only [Chdir.ok.injEq, forall_eq']
      split_ifs <;> exact Iff.rfl

end

/-! ### Sequences of requests -/

/-- A request for a directory whose listing is cached. -/
structure DirRequest (Dir : Type*) where
  sys : System Dir
  cfg : Config
  cachedir : Bytes
  st : Stat
  conn : Conn

namespace DirRequest

/-- The request is served by a process that is in `dir`. -/
def serve (q : DirRequest Dir) (dir : Dir) : (DirResult × Conn) × Dir :=
  getCachedirFileFrom q.sys q.cfg q.cachedir q.st dir q.conn

/-- What the request is answered when it finds the process in `dir`. -/
def answerFrom (q : DirRequest Dir) (dir : Dir) : DirResult × Conn :=
  getCachedirFile q.cfg
    (q.sys.seen dir (q.conn.req.pathname.getD []) (cacheName q.cachedir q.st)) q.cachedir q.st q.conn

def Returns (q : DirRequest Dir) (root : Dir) : Prop :=
  q.sys.Returns root (q.conn.req.pathname.getD []) (cacheName q.cachedir q.st) q.st

end DirRequest

/-- The working directory after a request. -/
def serveNext (dir : Dir) (q : DirRequest Dir) : Dir := (q.serve dir).2

/-- After every request the process is in `root`, and every request is answered as one that finds
the process in `root`. -/
structure KeepsRoot (root : Dir) (qs : List (DirRequest Dir)) : Prop where
  dir : ∀ done, done <+: qs → Run.runs serveNext root done = root
  answer : ∀ done q, done ++ [q] <+: qs →
    (q.serve (Run.runs serveNext root done)).1 = q.answerFrom root

/-- A directory that the server may enter, but not read. -/
def lockedRequest : DirRequest Bytes where
  sys :=
    { openFile := fun _ _ => .enoent
      chdir := fun _ path => .ok path
      opendirOk := fun dir => dir = str "/etc/boa"
      fopenOk := fun _ _ => true
      listingBytes := fun _ => 0
      reopenCache := fun _ _ => .enoent
      serverRoot := str "/etc/boa" }
  cfg := { cachedir := some (str "/var/spool/boa") }
  cachedir := str "/var/spool/boa"
  st := { kind := .directory }
  conn := { req := { fd := 5, pathname := some (str "/var/www/drop/") } }

end Yabwf
