import Yabwf.Lib.Tags
import Yabwf.Dates
import Yabwf.Links
import Yabwf.Markup

/-!
The directory indexer, `index_dir.c`: the program behind `DirectoryMaker`.

* `sendError`, `indexDirectory`, `main`: the program, with what it prints and what it returns.
-/

namespace Yabwf

namespace Indexer

/-! ### What the program is given -/

/-- `struct dirent`, with a name that a file can have. -/
structure Dirent where
  name : Bytes
  short : name.length ≤ maxNamLen
  noSlash : 47 ∉ name
  ne_nil : name ≠ []
  deriving DecidableEq

/-- What the program is built with, and what the system answers it. -/
structure Host where
  /-- `GUNZIP` is defined. -/
  gunzip : Bool
  /-- The name of the time zone, if `USE_LOCALTIME` is defined. -/
  zone : Option Bytes
  chdir : Bytes → Bool
  /-- The directory can be read, and there is memory for its entries. -/
  readable : Bool
  readdir : List Dirent
  /-- The order in which `scandir` gives the entries: by name, or as they are in the directory if
  it is the replacement in `extras`. -/
  arrange : List Dirent → List Dirent
  perm : ∀ l, (arrange l).Perm l
  /-- What `stat` says of an entry in the loop over the directories, and in that over the files. -/
  statDir : Dirent → Option Stat
  statFile : Dirent → Option Stat
  localtime : ℕ → Tm
  now : ℕ
  /-- There is memory for the time. -/
  strdup : Bool

/-! ### The program -/

/-- The texts of `send_error`, where case `4` has no `break`. -/
def theError : ℕ → Bytes
  | 1 => str "Not enough arguments were passed to the indexer."
  | 2 => str "The Directory Sorter ran out of Memory"
  | 3 => str "The was a problem changing to the appropriate directory."
  | 4 => str "Too many arguments were passed to the indexer."
  | 5 => str "Too many arguments were passed to the indexer."
  | 6 => str "No files in this directory."
  | _ => str "An unknown error occurred producing the directory."

/-- `send_error`. -/
def sendError (error : ℕ) : Bytes :=
  str "<html>\n<head>\n<title>\n" ++ theError error ++ str "\n</title>\n<body>\n" ++ theError error
    ++ str "\n</body>\n</html>\n"

/-- `select_files`. -/
def selectFiles (d : Dirent) : Bool := d.name.head? ≠ some 46

/-- `scandir` of the directory, with the entries that it selects. -/
def scandir (w : Host) : Option (List Dirent) :=
  if w.readable then some (w.arrange (w.readdir.filter selectFiles)) else none

/-- `mon_name` and `wday_name` of the C library. -/
def monName : List Bytes := [str "Jan", str "Feb", str "Mar", str "Apr", str "May", str "Jun",
  str "Jul", str "Aug", str "Sep", str "Oct", str "Nov", str "Dec"]

/-- `asctime`. -/
def asctime (tm : Tm) : Bytes :=
  wdayTab.getD tm.wday.toNat (str "???") ++ str " " ++ monName.getD tm.mon.toNat (str "???")
    ++ padded 32 3 tm.mday ++ str " " ++ padded 48 2 tm.hour ++ str ":" ++ padded 48 2 tm.min
    ++ str ":" ++ padded 48 2 tm.sec ++ str " " ++ decimal (tm.year + 1900) ++ [10]

/-- `ctime`. -/
def ctime (w : Host) (t : ℕ) : Bytes := asctime (w.localtime t)

/-- Why a page is not finished: something is written beyond the end of a buffer, or an escaper
returns `NULL`. -/
inductive Stop
  | overflow
  | failed
  deriving DecidableEq

/-- What is printed, and whether printing is stopped then. -/
structure Printed where
  out : Bytes
  stop : Option Stop

/-- Behind a text. -/
def Printed.behind (out : Bytes) (p : Printed) : Printed := ⟨out ++ p.out, p.stop⟩

/-- One part of a page after the other. -/
def Printed.andThen (p q : Printed) : Printed :=
  match p.stop with
  | none => q.behind p.out
  | some _ => p

/-- An escaper writes into a buffer, with a terminator. -/
def intoBuffer (size : ℕ) : Option Bytes → Except Stop Bytes
  | none => .error .failed
  | some s => if s.length + 1 ≤ size then .ok s else .error .overflow

/-- The names of an entry in `html_filename` and `http_filename`. -/
def filenames (name : Bytes) : Except Stop (Bytes × Bytes) := do
  let html ← intoBuffer htmlFilenameSize (htmlEscapeString name .given name.length)
  let http ← intoBuffer httpFilenameSize (httpEscapeString name .given name.length)
  return (html, http)

/-- `escaped_filename`. -/
def escapedFilename (http : Bytes) : Except Stop Bytes :=
  intoBuffer escapedFilenameSize (htmlEscapeString http .given http.length)

/-- The beginning and the end of a row of the table. -/
def rowFront : Bytes := str "<tr><td width=\"40%\">"

def rowBack (w : Host) (st : Stat) : Bytes :=
  str "</td><td align=right>" ++ ctime w st.mtime ++ str "</td><td align=right>"
    ++ decimal st.size ++ str " bytes</td></tr>\n"

/-- An anchor. -/
def anchor (href text : Bytes) : Bytes :=
  str "<a href=\"" ++ href ++ str "\">" ++ text ++ str "</a>"

/-- The row of a directory. -/
def dirRow (w : Host) (d : Dirent) (st : Stat) : Except Stop Bytes := do
  let (html, http) ← filenames d.name
  let escaped ← escapedFilename http
  return rowFront ++ anchor (escaped ++ str "/") (html ++ str "/") ++ rowBack w st

/-- The row of a file: if there is a compressed one, the names are cut off in their buffers, and
the second reference is not escaped once more. -/
def fileRow (w : Host) (d : Dirent) (st : Stat) : Except Stop Bytes := do
  let (html, http) ← filenames d.name
  if w.gunzip ∧ 3 < http.length ∧ http.drop (http.length - 3) = str ".gz" then
    let http := http.take (http.length - 3)
    let html := html.take (html.length - 3)
    let escaped ← escapedFilename http
    return rowFront ++ anchor escaped html ++ str " " ++ anchor (http ++ str ".gz") (str "(.gz)")
      ++ rowBack w st
  else
    let escaped ← escapedFilename http
    return rowFront ++ anchor escaped html ++ rowBack w st

/-- A loop of `index_directory` over the entries: those of which `stat` fails, and those of the
other kind, are passed over. -/
def listEntries (stat : Dirent → Option Stat) (directory : Bool)
    (row : Dirent → Stat → Except Stop Bytes) : List Dirent → Printed
  | [] => ⟨[], none⟩
  | d :: array =>
      match stat d with
      | none => listEntries stat directory row array
      | some st =>
          if decide (st.kind = .directory) ≠ directory then listEntries stat directory row array
          else
            match row d st with
            | .error stop => ⟨[], some stop⟩
            | .ok out => (listEntries stat directory row array).behind out

/-- The page up to the rows. -/
def pageFront (title html : Bytes) : Bytes :=
  str "<html>\n<head>\n<title>Index of " ++ html
    ++ str "</title>\n</head>\n\n<body bgcolor=\"#ffffff\">\n<H2>Index of " ++ html
    ++ str "</H2>\n<table>\n"
    ++ (if title = str "/" then []
        else str "<tr><td colspan=3><h3>Directories</h3></td></tr><tr><td colspan=3>"
          ++ anchor (str "../") (str "Parent Directory") ++ str "</td></tr>\n")

/-- What stands between the directories and the files. -/
def filesFront : Bytes :=
  str "<tr><td colspan=3>&nbsp;</td></tr>\n" ++ str "<tr><td colspan=3><h3>Files</h3></td></tr>\n"

/-- The part of the page that `index_directory` prints. -/
def printPage (w : Host) (title : Bytes) (array : List Dirent) : Printed :=
  match intoBuffer htmlFilenameSize (htmlEscapeString title .given title.length) with
  | .error stop => ⟨[], some stop⟩
  | .ok html =>
      ((listEntries w.statDir true (dirRow w) array).andThen
        ((listEntries w.statFile false (fileRow w) array).behind filesFront)).behind
          (pageFront title html)

/-- `index_directory`, with what it prints and what it returns; nothing if something is written
beyond the end of a buffer. -/
def indexDirectory (w : Host) (dir title : Bytes) : Option (Bytes × ℤ) :=
  if !w.chdir dir then some (sendError 3, -1)
  else
    match scandir w with
    | none => some (sendError 2, -1)
    | some array =>
        let p := printPage w title array
        match p.stop with
        | none => some (p.out, 0)
        | some .failed => some (p.out ++ sendError 4, -1)
        | some .overflow => none

/-- The last lines of the page. -/
def pageBack (w : Host) (tm : Tm) : Bytes :=
  str "</table>\n<hr noshade>\nIndex generated " ++ (asctime tm).dropLast ++ str " "
    ++ w.zone.getD (str "UTC")
    ++ str "\n<!-- This program is part of the YABWF project -->\n" ++ str "</body>\n</html>\n"

/-- `main`, which does not look at what `index_directory` returns. -/
def main (w : Host) (argv : List Bytes) : Option (Bytes × ℤ) :=
  match argv with
  | [_, dir, title] =>
      match indexDirectory w dir title with
      | none => none
      | some (out, _) =>
          if w.strdup then
            some (out ++ pageBack w (if w.zone.isSome then w.localtime w.now else gmtime w.now), 0)
          else some (out, -1)
  | argv => some (sendError (if argv.length < 3 then 1 else 5), -1)

end Indexer

end Yabwf
