import HostInventory.Json.Print

/-! Structured values as indented lines: one for each field and item, with what is inside a list
or an object below it and one level deeper. -/
namespace HostInventory.Json

/-- A value that is neither list nor object, as text stands alone and without quotes. -/
def scalar : Json → String
  | .text s => s
  | value => value.compact

mutual

def outline (depth : Nat) : Json → List String
  | .object fields => outlineFields depth fields
  | .list items => outlineItems depth 0 items
  | .null => [indentation depth ++ scalar .null]
  | .bool b => [indentation depth ++ scalar (.bool b)]
  | .number n => [indentation depth ++ scalar (.number n)]
  | .text s => [indentation depth ++ scalar (.text s)]

def outlineFields (depth : Nat) : List (String × Json) → List String
  | [] => []
  | (name, .object inner) :: fields =>
    (indentation depth ++ name ++ ":") :: (outlineFields (depth + 1) inner ++
      outlineFields depth fields)
  | (name, .list inner) :: fields =>
    (indentation depth ++ name ++ ":") :: (outlineItems (depth + 1) 0 inner ++
      outlineFields depth fields)
  | (name, value) :: fields =>
    (indentation depth ++ name ++ ": " ++ scalar value) :: outlineFields depth fields

def outlineItems (depth position : Nat) : List Json → List String
  | [] => []
  | .object inner :: items =>
    (indentation depth ++ "[" ++ toString position ++ "]") :: (outlineFields (depth + 1) inner ++
      outlineItems depth (position + 1) items)
  | .list inner :: items =>
    (indentation depth ++ "[" ++ toString position ++ "]") :: (outlineItems (depth + 1) 0 inner ++
      outlineItems depth (position + 1) items)
  | value :: items =>
    (indentation depth ++ "- " ++ scalar value) :: outlineItems depth (position + 1) items

end

end HostInventory.Json
