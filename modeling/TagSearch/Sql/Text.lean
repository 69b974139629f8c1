import TagSearch.Sql.Statement

/-! The text of a statement with its bound values, in the order of their placeholders. -/
namespace TagSearch.Sql

/-- A piece of SQL and the values of its placeholders. -/
structure Fragment where
  text : String
  bound : List Value
deriving Repr, DecidableEq

namespace Fragment

def plain (text : String) : Fragment := ⟨text, []⟩

def placeholder (value : Value) : Fragment := ⟨"?", [value]⟩

instance : Append Fragment where
  append a b := ⟨a.text ++ b.text, a.bound ++ b.bound⟩

/-- Fragments with the same text between neighbours. -/
def join (joiner : String) : List Fragment → Fragment
  | [] => plain ""
  | [a] => a
  | a :: rest => a ++ plain joiner ++ join joiner rest

/-- One placeholder for each value, separated by commas. -/
def list (values : List Value) : Fragment :=
  join "," (values.map placeholder)

@[simp] theorem text_append (a b : Fragment) : (a ++ b).text = a.text ++ b.text := rfl

@[simp] theorem bound_append (a b : Fragment) : (a ++ b).bound = a.bound ++ b.bound := rfl

end Fragment

open Fragment

def table : Kind → String
  | .image => "images"
  | .collection => "collections"

/-- The table that links a kind of entity to its tags. -/
def tagTable : Kind → String
  | .image => "image_tags"
  | .collection => "collection_tags"

/-- The column of the link table that holds the entity's id. -/
def ownerColumn : Kind → String
  | .image => "image_id"
  | .collection => "collection_id"

/-- What a page shows of an entity. -/
def selectColumns : Kind → String
  | .image => "e.id, e.name, e.location, e.uploader_id, e.rating, e.score_average"
  | .collection =>
    "e.id, e.name, " ++
      "(SELECT i.location FROM collection_members m JOIN images i ON i.id = m.image_id " ++
      "WHERE m.collection_id = e.id ORDER BY m.order_weight ASC, m.image_id ASC LIMIT 1), " ++
      "(SELECT COUNT(*) FROM collection_members m WHERE m.collection_id = e.id)"

def Owners.render : Owners → Fragment
  | carryingAny kind tags =>
    plain ("SELECT " ++ ownerColumn kind ++ " FROM " ++ tagTable kind ++ " WHERE tag_id IN (") ++
      list (tags.map .integer) ++ plain ")"
  | carryingEvery kind tags =>
    plain ("SELECT " ++ ownerColumn kind ++ " FROM " ++ tagTable kind ++ " WHERE tag_id IN (") ++
      list (tags.map .integer) ++
      plain (") GROUP BY " ++ ownerColumn kind ++ " HAVING COUNT(DISTINCT tag_id) = ") ++
      placeholder (.integer (Int64.ofNat tags.length))
  | collected => plain "SELECT image_id FROM collection_members"

def escapeText : String := " ESCAPE '\\'"

def Condition.render : Condition → Fragment
  | isIn owners => plain "e.id IN (" ++ owners.render ++ plain ")"
  | isNotIn owners => plain "e.id NOT IN (" ++ owners.render ++ plain ")"
  | compare column comparator value escaped =>
    plain ("e." ++ column.sql ++ " " ++ comparator.sql ++ " ") ++ placeholder value ++
      plain (if escaped then escapeText else "")
  | tagCount comparator value =>
    plain ("(SELECT COUNT(*) FROM image_tags t WHERE t.image_id = e.id) " ++ comparator.sql ++ " ") ++
      placeholder value

def Clause.render : Clause → Fragment
  | nothing => plain "1 = 0"
  | all [] => plain "1 = 1"
  | all conditions => join " AND " (conditions.map Condition.render)

/-- The order of a page, with the distance to the given pair first if there is one. -/
def orderText (nearest : Option HashPair) : Fragment :=
  match nearest with
  | none => plain "e.id DESC"
  | some pair =>
    plain "h.image_id IS NULL, hamming(h.h_hash, " ++ placeholder (.integer pair.horizontal.toInt64) ++
      plain ") + hamming(h.v_hash, " ++ placeholder (.integer pair.vertical.toInt64) ++ plain ") ASC, e.id DESC"

def joinText (nearest : Option HashPair) : String :=
  match nearest with
  | none => ""
  | some _ => " LEFT JOIN imaged_hashes h ON h.image_id = e.id"

def Statement.render : Statement → Fragment
  | count kind clause => plain ("SELECT COUNT(*) FROM " ++ table kind ++ " e WHERE ") ++ clause.render
  | page kind clause nearest limit offset =>
    plain ("SELECT " ++ selectColumns kind ++ " FROM " ++ table kind ++ " e" ++ joinText nearest ++ " WHERE ") ++
      clause.render ++ plain " ORDER BY " ++ orderText nearest ++ plain " LIMIT " ++ placeholder (.integer limit) ++
      plain " OFFSET " ++ placeholder (.integer offset)
  | adjacent kind clause pivot direction =>
    plain ("SELECT e.id FROM " ++ table kind ++ " e WHERE (") ++ clause.render ++
      plain (") AND e.id " ++ (match direction with | .previous => "<" | .next => ">") ++ " ") ++
      placeholder (.integer pivot) ++
      plain (" ORDER BY e.id " ++ (match direction with | .previous => "DESC" | .next => "ASC") ++ " LIMIT 1")

end TagSearch.Sql
