import NyanShopBot.Py.JsonRoundTrip
import NyanShopBot.Py.Utf8

/-!
# JSON documents in bytes

`JsonBytes.loads` is `json.loads` of bytes, which says nothing of why a document cannot be
read. `Json.unique` is what a hook that refuses repeated keys lets through.
-/

namespace Py

/-- `json.loads(body)`, none where it raises a `ValueError` or a `RecursionError`. -/
class JsonBytes where
  loads : Bytes → Option Json

namespace Json

mutual

/-- No object in the value repeats a key. -/
def unique : Json → Bool
  | arr items => uniqueItems items
  | obj members => decide (members.map (·.1)).Nodup && uniqueMembers members
  | _ => true

def uniqueItems : List Json → Bool
  | [] => true
  | v :: items => v.unique && uniqueItems items

def uniqueMembers : List (Str × Json) → Bool
  | [] => true
  | (_, v) :: members => v.unique && uniqueMembers members

end

end Json

/-- `json.loads(body, object_pairs_hook=…)` with a hook that refuses repeated keys. -/
def loadsUnique [JsonBytes] (body : Bytes) : Option Json :=
  (JsonBytes.loads body).filter (·.unique)

/-- A text without the byte order mark it starts with. -/
def withoutBom (s : Str) : Str := if s.head? = some 0xfeff then s.tail else s

/-- The documents in UTF-8 that nest less deeply than the interpreter recurses. -/
@[reducible] def utf8Documents : JsonBytes where
  loads body := (decodeUtf8 body).bind fun s => (Json.loads (withoutBom s)).toOption

/-- A document that is written in UTF-8 is read back. -/
theorem utf8Documents_loads {document : Json} (h : document.Writable) {body : Bytes}
    (hbody : encodeUtf8 document.compact = some body) :
    @JsonBytes.loads utf8Documents body = some (document.ordered false) := by
  have hloads : Json.loads document.compact = .ok (document.ordered false) :=
    Json.loads_dumps Json.readable_escapeText h
  have hbom : document.compact.head? ≠ some 0xfeff := fun hbom => by
    rw [Json.loads, if_pos hbom] at hloads
    cases hloads
  show (decodeUtf8 body).bind (fun s => (Json.loads (withoutBom s)).toOption) = _
  rw [decodeUtf8_of_encodeUtf8 hbody, Option.bind_some, withoutBom, if_neg hbom, hloads]
  rfl

end Py
