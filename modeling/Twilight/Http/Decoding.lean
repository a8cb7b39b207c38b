import Twilight.Http.ApiError

/-!
The untagged `ApiError` decoder on every input: what decodes as `Ratelimited`, and that decoded
`General` and `Message` values re-encode faithfully.
-/

namespace Twilight.Http

theorem ApiError.deserialize_eq_ratelimited {content : Content} {inner : RatelimitedApiError}
    (decoded : ApiError.deserialize content = some (.Ratelimited inner)) :
    GeneralApiError.deserialize content = none ∧ MessageApiError.deserialize content = none ∧
      RatelimitedApiError.deserialize content = some inner := by
  unfold ApiError.deserialize at decoded
  cases general : GeneralApiError.deserialize content <;>
    cases message : MessageApiError.deserialize content <;>
    cases ratelimited : RatelimitedApiError.deserialize content <;>
    simp_all [HOrElse.hOrElse, OrElse.orElse, Option.orElse]

theorem Content.field_of_absent {entries : List (String × Content)} {key : String}
    (absent : ∀ entry ∈ entries, entry.1 ≠ key) : Content.field entries key = some none := by
  rw [Content.field, List.filter_eq_nil_iff.mpr (by simpa using absent)]

/-- Only a map whose `embed` value the `Message` decoder refuses, or a sequence of the three
fields, decodes as `Ratelimited`; every map without an `embed` key, whatever else it holds,
decodes as `General` or as `Message { embed: None }`. -/
theorem apiError_ratelimited_needs_embed_or_seq :
    (∀ (content : Content) (inner : RatelimitedApiError),
      ApiError.deserialize content = some (.Ratelimited inner) →
        (∃ entries, content = .map entries ∧ (∃ entry ∈ entries, entry.1 = "embed") ∧
          MessageApiError.deserialize content = none) ∨
        ∃ global message retryAfter, content = .seq [global, message, retryAfter]) ∧
    ∀ entries : List (String × Content), (∀ entry ∈ entries, entry.1 ≠ "embed") →
      ∃ value, ApiError.deserialize (.map entries) = some value ∧
        ((∃ inner, value = .General inner) ∨ value = .Message ⟨none⟩) := by
  have noEmbed : ∀ entries : List (String × Content), (∀ entry ∈ entries, entry.1 ≠ "embed") →
      MessageApiError.deserialize (.map entries) = some ⟨none⟩ := fun entries absent => by
    simp [MessageApiError.deserialize, Content.field_of_absent absent]
  refine ⟨fun content inner decoded => ?_, fun entries absent => ?_⟩
  · obtain ⟨_, refused, read⟩ := ApiError.deserialize_eq_ratelimited decoded
    cases content with
    | map entries =>
      refine .inl ⟨entries, rfl, Classical.byContradiction fun absent => ?_, refused⟩
      rw [noEmbed entries fun entry mem same => absent ⟨entry, mem, same⟩] at refused
      cases refused
    | seq items =>
      rcases items with _ | ⟨global, _ | ⟨message, _ | ⟨retryAfter, _ | ⟨_, _⟩⟩⟩⟩ <;> try cases read
      exact .inr ⟨global, message, retryAfter, rfl⟩
    | _ => cases read
  · cases general : GeneralApiError.deserialize (.map entries) with
    | some inner => exact ⟨_, by simp [ApiError.deserialize, general], .inl ⟨inner, rfl⟩⟩
    | none =>
      exact ⟨_, by simp [ApiError.deserialize, general, noEmbed entries absent], .inr rfl⟩

theorem apiError_ratelimited_needs_embed_or_seq_flag :
    let content : Content := .map [("embed", .bool true), ("global", .bool false),
      ("message", .string "slow down"), ("retry_after", .u64 2)]
    ApiError.deserialize content = some (.Ratelimited ⟨false, "slow down", F64.ofNat 2⟩) ∧
      ((∃ entries, content = .map entries ∧ (∃ entry ∈ entries, entry.1 = "embed") ∧
          MessageApiError.deserialize content = none) ∨
        ∃ global message retryAfter, content = .seq [global, message, retryAfter]) :=
  ⟨rfl, apiError_ratelimited_needs_embed_or_seq.1 _ _ rfl⟩

theorem ErrorCode.canonical_from (int : UInt64) : (ErrorCode.from int).Canonical := by
  intro k other
  have same : (ErrorCode.Other k).num = int := other ▸ ErrorCode.num_from int
  subst same
  exact other

theorem ErrorCode.deserialize_canonical {content : Content} {code : ErrorCode}
    (decoded : ErrorCode.deserialize content = some code) : code.Canonical := by
  cases content with
  | u64 int =>
    cases decoded
    exact ErrorCode.canonical_from int
  | _ => cases decoded

theorem GeneralApiError.deserialize_canonical {content : Content} {inner : GeneralApiError}
    (decoded : GeneralApiError.deserialize content = some inner) : inner.code.Canonical := by
  unfold GeneralApiError.deserialize at decoded
  split at decoded
  · simp only [bind, Option.bind_eq_some, pure, Option.some.injEq] at decoded
    obtain ⟨code, ⟨_, _, read⟩, _, _, rfl⟩ := decoded
    exact ErrorCode.deserialize_canonical read
  · simp only [bind, Option.bind_eq_some, pure, Option.some.injEq] at decoded
    obtain ⟨code, read, _, _, rfl⟩ := decoded
    exact ErrorCode.deserialize_canonical read
  · cases decoded

/-- Every `General` or `Message` value the decoder returns, from any input, is read back
from its own encoding. -/
theorem apiError_decoded_reencodes (content : Content) (value : ApiError)
    (decoded : ApiError.deserialize content = some value)
    (notRatelimited : ∀ inner, value ≠ .Ratelimited inner) :
    ApiError.deserialize value.serialize = some value := by
  cases value with
  | General inner =>
    have general : GeneralApiError.deserialize content = some inner := by
      unfold ApiError.deserialize at decoded
      cases found : GeneralApiError.deserialize content <;>
        cases message : MessageApiError.deserialize content <;>
        cases ratelimited : RatelimitedApiError.deserialize content <;>
        simp_all [HOrElse.hOrElse, OrElse.orElse, Option.orElse]
    exact ApiError.deserialize_serialize_general inner
      (GeneralApiError.deserialize_canonical general)
  | Message inner => exact ApiError.deserialize_serialize_message inner
  | Ratelimited inner => exact absurd rfl (notRatelimited inner)

theorem apiError_decoded_reencodes_general :
    let content : Content := .map [("code", .u64 10001), ("message", .string "Unknown account")]
    let value : ApiError := .General ⟨.UnknownAccount, "Unknown account"⟩
    ApiError.deserialize content = some value ∧ (∀ inner, value ≠ .Ratelimited inner) ∧
      ApiError.deserialize value.serialize = some value :=
  ⟨rfl, fun _ => ApiError.noConfusion, apiError_decoded_reencodes
    (.map [("code", .u64 10001), ("message", .string "Unknown account")]) _ rfl
    fun _ => ApiError.noConfusion⟩

end Twilight.Http
