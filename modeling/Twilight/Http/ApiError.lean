import Twilight.Http.ErrorCode

/-!
`ApiError` of `api_error.rs`: its equality, its derived serde representation (untagged, each
struct read from a map or a sequence), and `Display for MessageApiError`.
-/

namespace Twilight.Http

def ErrorCode.isOther : ErrorCode → Bool
  | .Other _ => true
  | _ => false

theorem ErrorCode.canonical_of_not_isOther {code : ErrorCode} (named : code.isOther = false) :
    code.Canonical := by
  rintro k rfl
  exact absurd named (by simp [ErrorCode.isOther])

theorem ErrorCode.eq_other_of_isOther {code : ErrorCode} (other : code.isOther) :
    code = .Other code.num := by
  cases code
  case Other k => rfl
  all_goals exact Bool.noConfusion other

theorem ErrorCode.eq_iff (c d : ErrorCode) : c = d ↔ c.num = d.num ∧ c.isOther = d.isOther := by
  refine ⟨fun same => same ▸ ⟨rfl, rfl⟩, fun ⟨same, kind⟩ => ?_⟩
  cases otherC : c.isOther
  · exact ErrorCode.num_injective (ErrorCode.canonical_of_not_isOther otherC)
      (ErrorCode.canonical_of_not_isOther (kind ▸ otherC)) same
  · have otherD : d.isOther = true := kind ▸ otherC
    rw [ErrorCode.eq_other_of_isOther otherC, ErrorCode.eq_other_of_isOther otherD, same]

instance : DecidableEq ErrorCode := fun c d =>
  decidable_of_iff (c.num = d.num ∧ c.isOther = d.isOther) (ErrorCode.eq_iff c d).symm

structure GeneralApiError where
  code : ErrorCode
  message : String
  deriving DecidableEq

inductive MessageApiErrorEmbedField where
  | Fields
  | Timestamp
  deriving DecidableEq, Repr

structure MessageApiError where
  embed : Option (List MessageApiErrorEmbedField)
  deriving DecidableEq, Repr

structure RatelimitedApiError where
  global : Bool
  message : String
  retryAfter : F64
  deriving Repr

inductive ApiError where
  | General (inner : GeneralApiError)
  | Message (inner : MessageApiError)
  | Ratelimited (inner : RatelimitedApiError)

/-- `PartialEq for RatelimitedApiError`: the wait is not compared. -/
def RatelimitedApiError.eq (self other : RatelimitedApiError) : Bool :=
  self.global == other.global && self.message == other.message

def ApiError.eq : ApiError → ApiError → Bool
  | .General self, .General other => decide (self = other)
  | .Message self, .Message other => decide (self = other)
  | .Ratelimited self, .Ratelimited other => self.eq other
  | _, _ => false

/-! ### Serialization -/

def MessageApiErrorEmbedField.serialize : MessageApiErrorEmbedField → Content
  | .Fields => .string "fields"
  | .Timestamp => .string "timestamp"

def MessageApiErrorEmbedField.ofName : String → Option MessageApiErrorEmbedField
  | "fields" => some .Fields
  | "timestamp" => some .Timestamp
  | _ => none

def MessageApiErrorEmbedField.deserialize : Content → Option MessageApiErrorEmbedField
  | .string name => MessageApiErrorEmbedField.ofName name
  | .map [(name, .null)] => MessageApiErrorEmbedField.ofName name
  | _ => none

def GeneralApiError.serialize (self : GeneralApiError) : Content :=
  .map [("code", self.code.serialize), ("message", .string self.message)]

def MessageApiError.serialize (self : MessageApiError) : Content :=
  .map [("embed", match self.embed with
    | none => .null
    | some fields => .seq (fields.map (·.serialize)))]

def RatelimitedApiError.serialize (self : RatelimitedApiError) : Content :=
  .map [("global", .bool self.global), ("message", .string self.message),
    ("retry_after", .f64 self.retryAfter)]

def ApiError.serialize : ApiError → Content
  | .General inner => inner.serialize
  | .Message inner => inner.serialize
  | .Ratelimited inner => inner.serialize

def Content.asString : Content → Option String
  | .string value => some value
  | _ => none

def Content.asBool : Content → Option Bool
  | .bool value => some value
  | _ => none

/-- An `f64` field: serde reads an integer as the nearest double. -/
def Content.asF64 : Content → Option F64
  | .f64 value => some value
  | .u64 value => some (F64.ofNat value.toNat)
  | .i64 value => some (F64.ofInt value)
  | _ => none

def Content.required (entries : List (String × Content)) (key : String) : Option Content :=
  (Content.field entries key).bind id

/-- The derived struct decoders read a map by key, or a sequence of exactly the fields, in
order. -/
def GeneralApiError.deserialize : Content → Option GeneralApiError
  | .map entries => do
    let code ← (Content.required entries "code").bind ErrorCode.deserialize
    let message ← (Content.required entries "message").bind Content.asString
    pure ⟨code, message⟩
  | .seq [code, message] => do
    let code ← ErrorCode.deserialize code
    let message ← Content.asString message
    pure ⟨code, message⟩
  | _ => none

def MessageApiError.deserializeEmbed : Content → Option (Option (List MessageApiErrorEmbedField))
  | .null => some none
  | .seq items => (items.mapM MessageApiErrorEmbedField.deserialize).map some
  | _ => none

/-- In a map the `embed` field is an `Option`, so an absent key reads as `None`; in a sequence
it is the one element. -/
def MessageApiError.deserialize : Content → Option MessageApiError
  | .map entries => do
    let embed ← match ← Content.field entries "embed" with
      | none => some none
      | some value => MessageApiError.deserializeEmbed value
    pure ⟨embed⟩
  | .seq [embed] => do
    let embed ← MessageApiError.deserializeEmbed embed
    pure ⟨embed⟩
  | _ => none

def RatelimitedApiError.deserialize : Content → Option RatelimitedApiError
  | .map entries => do
    let global ← (Content.required entries "global").bind Content.asBool
    let message ← (Content.required entries "message").bind Content.asString
    let retryAfter ← (Content.required entries "retry_after").bind Content.asF64
    pure ⟨global, message, retryAfter⟩
  | .seq [global, message, retryAfter] => do
    let global ← Content.asBool global
    let message ← Content.asString message
    let retryAfter ← Content.asF64 retryAfter
    pure ⟨global, message, retryAfter⟩
  | _ => none

/-- `#[serde(untagged)]`: the variants are tried in declaration order. -/
def ApiError.deserialize (content : Content) : Option ApiError :=
  (ApiError.General <$> GeneralApiError.deserialize content) <|>
    (ApiError.Message <$> MessageApiError.deserialize content) <|>
    (ApiError.Ratelimited <$> RatelimitedApiError.deserialize content)

/-! ### Round trips -/

theorem MessageApiErrorEmbedField.deserialize_serialize (field : MessageApiErrorEmbedField) :
    MessageApiErrorEmbedField.deserialize field.serialize = some field := by
  cases field <;> rfl

theorem MessageApiErrorEmbedField.mapM_deserialize_serialize (fields : List MessageApiErrorEmbedField) :
    (fields.map (·.serialize)).mapM MessageApiErrorEmbedField.deserialize = some fields := by
  induction fields with
  | nil => rfl
  | cons field rest ih =>
    simp only [List.map_cons, List.mapM_cons, MessageApiErrorEmbedField.deserialize_serialize, ih]
    rfl

theorem ApiError.deserialize_serialize_general (inner : GeneralApiError)
    (canonical : inner.code.Canonical) :
    ApiError.deserialize (ApiError.General inner).serialize = some (.General inner) := by
  simp [ApiError.deserialize, ApiError.serialize, GeneralApiError.serialize,
    GeneralApiError.deserialize, Content.required, Content.field, ErrorCode.serialize,
    ErrorCode.deserialize, Content.asString, ErrorCode.from_num _ canonical]

theorem MessageApiError.deserialize_serialize (inner : MessageApiError) :
    MessageApiError.deserialize inner.serialize = some inner := by
  rcases inner with ⟨_ | fields⟩
  · rfl
  · show (((fields.map (·.serialize)).mapM MessageApiErrorEmbedField.deserialize).map some).bind
      (fun embed => some (MessageApiError.mk embed)) = some ⟨some fields⟩
    rw [MessageApiErrorEmbedField.mapM_deserialize_serialize]
    rfl

theorem ApiError.deserialize_serialize_message (inner : MessageApiError) :
    ApiError.deserialize (ApiError.Message inner).serialize = some (.Message inner) := by
  have noCode : GeneralApiError.deserialize inner.serialize = none := by
    rcases inner with ⟨_ | _⟩ <;> rfl
  rw [ApiError.serialize, ApiError.deserialize, noCode, MessageApiError.deserialize_serialize]
  rfl

theorem ApiError.deserialize_serialize_ratelimited (inner : RatelimitedApiError) :
    ApiError.deserialize (ApiError.Ratelimited inner).serialize = some (.Message ⟨none⟩) := by
  simp [ApiError.deserialize, ApiError.serialize, RatelimitedApiError.serialize,
    GeneralApiError.deserialize, MessageApiError.deserialize, Content.required, Content.field]

/-- The derived untagged representation reads `General` (with a canonical code) and
`Message` back, but every `Ratelimited` value comes back as `Message { embed: None }`,
which `PartialEq` tells apart from it. -/
theorem apiError_ratelimited_decodes_as_message :
    (∀ inner : GeneralApiError, inner.code.Canonical →
      ApiError.deserialize (ApiError.General inner).serialize = some (.General inner)) ∧
    (∀ inner : MessageApiError,
      ApiError.deserialize (ApiError.Message inner).serialize = some (.Message inner)) ∧
    (∀ inner : RatelimitedApiError,
      ApiError.deserialize (ApiError.Ratelimited inner).serialize = some (.Message ⟨none⟩) ∧
        (ApiError.Message ⟨none⟩).eq (.Ratelimited inner) = false) :=
  ⟨ApiError.deserialize_serialize_general, ApiError.deserialize_serialize_message,
    fun inner => ⟨ApiError.deserialize_serialize_ratelimited inner, rfl⟩⟩

/-! ### Display -/

def MessageApiErrorEmbedField.fmt : MessageApiErrorEmbedField → String
  | .Fields => "fields"
  | .Timestamp => "timestamp"

/-- `Display for MessageApiError`, writing into a `String`, where no write fails. The loop
over `embed.iter().enumerate()` writes each field and then `", "` when its index equals
`field_count`, that is `embed.len().saturating_sub(1)`. -/
def MessageApiError.fmt (self : MessageApiError) : String :=
  let out := "message fields invalid: "
  match self.embed with
  | some embed =>
    let out := out ++ "embed ("
    let fieldCount := embed.length - 1
    let out := embed.enum.foldl
      (fun out (idx, field) => out ++ field.fmt ++ if idx = fieldCount then ", " else "") out
    out ++ ")"
  | none => out

@[simp] theorem string_join_nil : String.join [] = "" := rfl

theorem string_join_cons (first : String) (rest : List String) :
    String.join (first :: rest) = first ++ String.join rest := by
  have shift : ∀ (acc : String) (parts : List String),
      parts.foldl (· ++ ·) acc = acc ++ parts.foldl (· ++ ·) "" := by
    intro acc parts
    induction parts generalizing acc with
    | nil => exact (String.append_empty acc).symm
    | cons part parts ih => rw [List.foldl_cons, List.foldl_cons, ih, ih (_ ++ part),
        String.empty_append, String.append_assoc]
  simp only [String.join, List.foldl_cons, String.empty_append]
  exact shift first rest

theorem MessageApiError.foldl_enumFrom (fieldCount : Nat) :
    ∀ (fields : List MessageApiErrorEmbedField) (start : Nat) (out : String),
      start + fields.length = fieldCount + 1 →
      (List.enumFrom start fields).foldl
          (fun out (idx, field) => out ++ field.fmt ++ if idx = fieldCount then ", " else "")
          out =
        out ++ String.join (fields.map (·.fmt)) ++ (if fields = [] then "" else ", ")
  | [], _, out, _ => by simp
  | [field], start, out, last => by
    obtain rfl : start = fieldCount := by simpa using last
    simp [string_join_cons]
  | field :: next :: rest, start, out, length => by
    have notLast : start ≠ fieldCount := by simp at length; omega
    rw [List.enumFrom_cons, List.foldl_cons,
      MessageApiError.foldl_enumFrom fieldCount (next :: rest) (start + 1) _
        (by simp at length ⊢; omega)]
    simp [notLast, string_join_cons, String.append_assoc]

/-- The output for an embed list: the prefix, every field's string with nothing between
them, a separator after the last one only, and the closing parenthesis. Two fields print
as `fieldstimestamp, ` where a separator between them would print `fields, timestamp`. -/
theorem messageApiError_fmt_separator_after_last :
    (∀ fields : List MessageApiErrorEmbedField,
      (MessageApiError.mk (some fields)).fmt =
        "message fields invalid: embed (" ++ String.join (fields.map (·.fmt)) ++
          (if fields = [] then "" else ", ") ++ ")") ∧
    (MessageApiError.mk (some [.Fields, .Timestamp])).fmt ≠
      "message fields invalid: embed (fields, timestamp)" := by
  refine ⟨fun fields => ?_, by decide⟩
  rcases fields with _ | ⟨field, rest⟩
  · rfl
  · simp only [MessageApiError.fmt, List.enum]
    rw [MessageApiError.foldl_enumFrom _ _ 0 _ (by simp)]
    rfl

end Twilight.Http
