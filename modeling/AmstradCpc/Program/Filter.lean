/-
Which notices are shown. The verbosity of the configuration sets a limit for
all topics. A specification from outside may change it, and set other limits
for single topics: it is a list of entries, separated by commas, each a level,
the name of a topic, or both with an equals sign between them. A pattern after a
slash must be found in every notice that is shown.
-/
import AmstradCpc.Notice
import AmstradCpc.Text.Blank
import AmstradCpc.Text.Regex.Parse
import AmstradCpc.Text.Split

namespace AmstradCpc

structure NoticeFilter where
  /-- The limit of topics that have none of their own. -/
  limit : Option Severity
  /-- The limits of all topics whose names begin in some way; no beginning is
  there twice. -/
  topics : List (List Char × Option Severity) := []
  /-- What must be found in every notice. -/
  pattern : Text.Regex := .empty
  deriving DecidableEq, Repr, Inhabited

namespace NoticeFilter

/-! ## Showing -/

/-- The limit of a topic: of the beginnings that its name has the longest
counts. -/
def limitOf (f : NoticeFilter) (topic : Topic) : Option Severity :=
  let matching := f.topics.filter fun (start, _) => start.isPrefixOf topic.path.toList
  (matching.foldl (fun (best, limit) (start, level) =>
    if best ≤ start.length then (start.length, level) else (best, limit)) (0, f.limit)).2

def shows (f : NoticeFilter) (n : Notice) : Bool :=
  n.shown (f.limitOf n.topic) && f.pattern.found n.text.toList

/-! ## Specifications -/

/-- A level by its name, in capital letters or small ones; there is one at
which nothing is shown. -/
def level? (text : List Char) : Option (Option Severity) :=
  match String.ofList (text.map Char.toUpper) with
  | "OFF" => some none
  | name => ([.error, .warn, .info, .debug, .trace].find? fun s : Severity => s.name == name).map some

/-- Sets the limit of the topics whose names begin with `start`. -/
def setTopic (f : NoticeFilter) (start : List Char) (limit : Option Severity) : NoticeFilter :=
  if f.topics.any (·.1 == start) then
    { f with topics := f.topics.map fun entry => if entry.1 == start then (start, limit) else entry }
  else { f with topics := f.topics ++ [(start, limit)] }

/-- What is said about an entry without a meaning. -/
def invalid (text : List Char) : String :=
  "warning: invalid logging spec '" ++ String.ofList text ++ "', ignoring it"

/-- Takes an entry, or complains. -/
def takeEntry (f : NoticeFilter) (entry : List Char) : Except String NoticeFilter :=
  match Text.splitAt '=' entry with
  | [text] =>
    match level? text with
    | some limit => .ok { f with limit }
    | none => .ok (f.setTopic text (some .trace))
  | [start, text] =>
    match Text.trim text with
    | [] => .ok (f.setTopic start (some .trace))
    | text =>
      match level? text with
      | some limit => .ok (f.setTopic start limit)
      | none => .error (invalid text)
  | _ => .error (invalid entry)

/-- Takes entries, and gathers the complaints. -/
def takeEntries (f : NoticeFilter) : List (List Char) → NoticeFilter × List String
  | [] => (f, [])
  | entry :: rest =>
    match Text.trim entry with
    | [] => f.takeEntries rest
    | entry =>
      match f.takeEntry entry with
      | .ok f => f.takeEntries rest
      | .error complaint =>
        let (f, complaints) := f.takeEntries rest
        (f, complaint :: complaints)

/-- Takes a pattern, or complains. -/
def takePattern (f : NoticeFilter) (pattern : List Char) : NoticeFilter × List String :=
  match Text.Regex.parse pattern with
  | .ok pattern => ({ f with pattern }, [])
  | .error flaw =>
    (f, ["warning: invalid regex filter - " ++ flaw.message pattern ++ ", ignoring it"])

/-- Takes a specification, and gathers the complaints. -/
def takeSpec (f : NoticeFilter) (spec : String) : NoticeFilter × List String :=
  match Text.splitAt '/' spec.toList with
  | entries :: rest =>
    match rest with
    | [] => f.takeEntries (Text.splitAt ',' entries)
    | [pattern] =>
      let (f, complaints) := f.takeEntries (Text.splitAt ',' entries)
      let (f, more) := f.takePattern pattern
      (f, complaints ++ more)
    | _ => (f, ["warning: invalid logging spec '" ++ spec ++ "' (too many '/'s), ignoring it"])
  | [] => (f, [])

end NoticeFilter

end AmstradCpc
