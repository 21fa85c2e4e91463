import HeaderDigest.Text.Basic

/-!
# JSON values

A JSON value as a tree. Strings and the keys of objects are held as they are written between
their quotes, and numbers as they are written; fields keep their order and may repeat a key.
-/

namespace HeaderDigest

inductive Json
  | null
  | bool (value : Bool)
  | number (written : Text)
  | string (written : Text)
  | array (items : List Json)
  | object (fields : List (Text × Json))
deriving Repr

end HeaderDigest
