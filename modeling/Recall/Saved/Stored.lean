/-
Recall.Saved.Stored — saved searches as stored values.

They are kept in an envelope with a version; a bare list is the older form. Reading takes the
usable entries with distinct ids, derives missing names and dates, and holds every setting to its
vocabulary.
-/
import Recall.Decode.Records
import Recall.Saved.Basic

namespace Recall

namespace Saved

/-- The version of the envelope. -/
def version : Int := 2

/-- Whether a stored version is the current one; the number may be a floating-point one. -/
def isCurrent : Json → Bool
  | .int n => n == version
  | .float x => x.equalsInt version
  | _ => false

/-- The search of a stored entry. `now` dates an entry that has no date of its own. -/
def ofStored? (now : String) : Json → Option SavedSearch
  | .obj members =>
    let get := Json.field members
    (Decode.trimmed? (get "id")).map fun id =>
      let query := Text.trim (Decode.text (get "query") "")
      let filter := filterOf (get "filter")
      let sortBy := sortOf (get "sortBy")
      let window := windowOf (get "timelineWindow")
      let verbatim := (get "verbatim").isSet
      let createdAt := Decode.timestamp (get "createdAt") (Decode.timestamp (get "updatedAt") now)
      { id := id
        name := ((Decode.text? (get "name")).map cleanName).getD
          (defaultName query filter sortBy window verbatim)
        query := query
        filter := filter
        sortBy := sortBy
        window := window
        limit := limitOf (get "resultLimit")
        verbatim := verbatim
        pinned := (get "pinned").isSet
        createdAt := createdAt
        updatedAt := Decode.timestamp (get "updatedAt") createdAt }
  | _ => none

/-- The entries of a stored value. -/
def entries : Json → List Json
  | .arr items => items
  | .obj members =>
    if isCurrent (Json.field members "version") then
      match Json.field members "searches" with
      | .arr items => items
      | _ => []
    else []
  | _ => []

/-- The searches without those whose id was there before. -/
def firstOfId : List SavedSearch → List SavedSearch
  | [] => []
  | s :: r => s :: (firstOfId r).filter fun t => t.id != s.id

/-- The searches of a stored value. -/
def decode (j : Json) (now : String) : List SavedSearch :=
  firstOfId ((entries j).filterMap (ofStored? now))

/-- A search as a stored entry. -/
def entry (s : SavedSearch) : Json :=
  .obj [
    ("id", .str s.id), ("name", .str s.name), ("query", .str s.query), ("filter", .str s.filter),
    ("sortBy", .str s.sortBy), ("timelineWindow", .str s.window), ("resultLimit", .int s.limit),
    ("verbatim", .bool s.verbatim), ("pinned", .bool s.pinned), ("createdAt", .str s.createdAt),
    ("updatedAt", .str s.updatedAt)]

/-- Searches in the current envelope. -/
def encode (searches : List SavedSearch) : Json :=
  .obj [("version", .int version), ("searches", .arr (searches.map entry))]

end Saved

end Recall
