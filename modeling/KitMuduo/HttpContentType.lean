import KitMuduo.FirstRule
import KitMuduo.HttpMessage

/-!
# The content type of a header value

`ContentType::FromString` looks for words in the whole value of the header, so
the parameters of the media type take part in the decision.
-/

namespace KitMuduo

open FirstRule ListSearch

/-- What `HttpContext::Bind` decodes a body with. -/
inductive Decoder
  | BindWithJson
  | BindWithMultiForm
  deriving DecidableEq

namespace ContentType

/-- The switch of `HttpContext::Bind`. -/
def decoder : ContentType → Option Decoder
  | kJsonType => some .BindWithJson
  | kMultiForm => some .BindWithMultiForm
  | _ => none

/-- The words in the order in which they are looked for. -/
def typeWords : List (Bytes × ContentType) :=
  [(ascii "json", kJsonType), (ascii "xml", kXmlType),
    (ascii "plain", kPlainType), (ascii "jpeg", kImageJpgType),
    (ascii "multipart", kMultiForm), (ascii "stream", kOctetStream)]

/-- The value contains the word, in whatever case. -/
def contains (value word : Bytes) : Bool :=
  (search word (value.map tolower)).isSome

theorem FromString_eq_classify (value : Bytes) :
    FromString value = classify kUnknowType typeWords (contains value) :=
  rfl

theorem contains_iff {value word : Bytes} :
    contains value word = true ↔ word <:+: value.map tolower :=
  search_isSome_iff

/-- A word without a semicolon stands on one side of it. -/
theorem contains_append {value parameters word : Bytes}
    (nonempty : word ≠ []) (noSemicolon : 59 ∉ word) :
    contains (value ++ 59 :: parameters) word =
      (contains value word || contains parameters word) := by
  have lowered : (value ++ 59 :: parameters).map tolower =
      value.map tolower ++ 59 :: parameters.map tolower := by
    rw [List.map_append, List.map_cons]
    rfl
  rw [Bool.eq_iff_iff, Bool.or_eq_true, contains_iff, contains_iff,
    contains_iff, lowered]
  exact infix_append_cons_iff nonempty noSemicolon

/-- The value with its parameters is of the type of the media type alone, and is
decoded in the same way. -/
def SameDecoding (mediaType parameters : Bytes) : Prop :=
  FromString (mediaType ++ 59 :: parameters) = FromString mediaType ∧
    decoder (FromString (mediaType ++ 59 :: parameters)) =
      decoder (FromString mediaType)

/-- No word that is looked for before the one that decides on the media type
stands in the parameters. -/
def ParametersSilent (mediaType parameters : Bytes) : Prop :=
  ∀ word ∈ passed typeWords (contains mediaType),
    contains parameters word = false

instance (mediaType parameters : Bytes) :
    Decidable (ParametersSilent mediaType parameters) := by
  unfold ParametersSilent
  infer_instance

theorem typeWords_proper : ∀ word ∈ typeWords.map Prod.fst,
    word ≠ [] ∧ 59 ∉ word := by
  decide

/-- The parameters leave the type alone exactly if they are silent. -/
theorem sameDecoding_iff (mediaType parameters : Bytes) :
    SameDecoding mediaType parameters ↔
      ParametersSilent mediaType parameters := by
  have decides : FromString (mediaType ++ 59 :: parameters) =
      classify kUnknowType typeWords fun word =>
        contains mediaType word || contains parameters word := by
    rw [FromString_eq_classify]
    refine FirstRule.classify_congr fun word member => ?_
    obtain ⟨nonempty, noSemicolon⟩ := typeWords_proper word member
    exact contains_append nonempty noSemicolon
  have same : FromString (mediaType ++ 59 :: parameters) =
      FromString mediaType ↔ ParametersSilent mediaType parameters := by
    rw [decides, FromString_eq_classify]
    exact classify_or_eq_iff (by decide) (by decide) _ _
  constructor
  · exact fun decoding => same.mp decoding.1
  · intro silent
    have equal := same.mpr silent
    exact ⟨equal, by rw [equal]⟩

/-- A boundary of a multipart body that contains the word `xml`. -/
theorem not_sameDecoding_boundary :
    ¬ ∀ mediaType parameters : Bytes, 59 ∉ mediaType →
      SameDecoding mediaType parameters := by
  intro always
  have same := (always (ascii "multipart/form-data") (ascii " boundary=aXmL1")
    (by decide)).1
  exact absurd same (by decide)

end ContentType

end KitMuduo
