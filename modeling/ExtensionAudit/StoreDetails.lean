import ExtensionAudit.Json.Decode

namespace ExtensionAudit

/-- What the page of an extension in a web store says. It is shown and passed on; no rule looks at
it. -/
structure StoreDetails where
  name : Option String := none
  image : Option String := none
  author : Option String := none
  rating : Option String := none
  ratingCount : Option String := none
  lastUpdated : Option String := none
  size : Option String := none
  users : Option String := none
  developerInfo : Option String := none
deriving DecidableEq

namespace StoreDetails

open Json

def fields : List String :=
  ["name", "image", "author", "rating", "rating_count", "last_updated", "size", "users",
    "developer_info"]

instance : Encode StoreDetails where
  encode d := .object (
    memberIfSome "name" d.name ++
    memberIfSome "image" d.image ++
    memberIfSome "author" d.author ++
    memberIfSome "rating" d.rating ++
    memberIfSome "rating_count" d.ratingCount ++
    memberIfSome "last_updated" d.lastUpdated ++
    memberIfSome "size" d.size ++
    memberIfSome "users" d.users ++
    memberIfSome "developer_info" d.developerInfo)

instance : Decode StoreDetails where
  decode? tree := do
    let given ← Fields.ofSyntax? fields tree
    return {
      name := ← given.optional "name"
      image := ← given.optional "image"
      author := ← given.optional "author"
      rating := ← given.optional "rating"
      ratingCount := ← given.optional "rating_count"
      lastUpdated := ← given.optional "last_updated"
      size := ← given.optional "size"
      users := ← given.optional "users"
      developerInfo := ← given.optional "developer_info" }

end StoreDetails

end ExtensionAudit
