import Benjamin.Base64
import Benjamin.PyBase
import Benjamin.RoseTree
import Benjamin.Utf8Replacement

/-!
# The text of a mail

A payload of the Gmail API is a tree of MIME parts. `_extract_text_body` looks for plain
text at the root and at the parts of the root; a mail with an attachment has its text one
level further down.
-/
namespace GmailBody

open PyBase RoseTree

structure PartBody where
  data : Option String

structure Part where
  mimeType : Option String
  body : Option PartBody

abbrev Payload := RoseTree Part

/-- `binascii.Error`. -/
def binasciiError : Base64.Incomplete → PyError
  | .lone n => .valueError ("Invalid base64-encoded string: number of data characters (" ++
      toString n ++ ") cannot be 1 more than a multiple of 4")
  | .unpadded => .valueError "Incorrect padding"

/-- `_decode_body`. -/
def decodeBody (data : String) : Except PyError String :=
  let padded := data.toList ++ List.replicate ((4 - data.length % 4) % 4) '='
  match Base64.decode padded with
  | .ok bytes => .ok (String.ofList (Utf8Replacement.decode bytes))
  | .error e => .error (binasciiError e)

def textData (part : Part) : Option String :=
  if part.mimeType = some "text/plain" then
    (part.body.bind PartBody.data).filter fun data => data ≠ ""
  else none

def firstTextPart : List Payload → Except PyError String
  | [] => .ok ""
  | part :: rest =>
    match textData part.value with
    | some data => decodeBody data
    | none => firstTextPart rest

/-- `_extract_text_body`. -/
def extractTextBody (payload : Payload) : Except PyError String :=
  match textData payload.value with
  | some data => decodeBody data
  | none => firstTextPart payload.branches

/-- The body is the decoded data of the first text part in depth-first order, and empty only
if there is none. -/
structure FindsText (payload : Payload) : Prop where
  found : ∀ data, payload.first textData = some data →
    extractTextBody payload = decodeBody data
  missing : extractTextBody payload = .ok "" → payload.first textData = none

/-- If there is text anywhere, it is at the root or one level below it, what is found there
decodes to what the first text part decodes to, and it has a character of the alphabet. -/
def WithinReach (payload : Payload) : Prop :=
  ∀ data, payload.first textData = some data →
    ∃ near, payload.top.findSome? textData = some near ∧ decodeBody near = decodeBody data ∧
      ∃ c ∈ near.toList, (Base64.sextet c).isSome = true

/-- Data without characters of the alphabet, and only such data, decodes to the empty text. -/
theorem decodeBody_empty_iff (data : String) :
    decodeBody data = .ok "" ↔ ∀ c ∈ data.toList, Base64.sextet c = none := by
  have hpadding : ∀ n, (∀ c ∈ data.toList ++ List.replicate n '=', Base64.sextet c = none) ↔
      ∀ c ∈ data.toList, Base64.sextet c = none := by
    intro n
    constructor
    · intro h c hc
      exact h c (List.mem_append_left _ hc)
    · intro h c hc
      rcases List.mem_append.mp hc with hc | hc
      · exact h c hc
      · rw [List.eq_of_mem_replicate hc]
        exact Base64.sextet_pad
  rw [← hpadding, ← Base64.decode_nil_iff, decodeBody]
  cases hdecode : Base64.decode
      (data.toList ++ List.replicate ((4 - data.length % 4) % 4) '=') with
  | error e => simp
  | ok bytes =>
    simp [← String.toList_inj, Utf8Replacement.decode_nil_iff]

theorem firstTextPart_eq (parts : List Payload) :
    firstTextPart parts = match (parts.map RoseTree.value).findSome? textData with
      | some data => decodeBody data
      | none => .ok "" := by
  induction parts with
  | nil => rfl
  | cons part rest ih =>
    rw [firstTextPart, List.map_cons, List.findSome?_cons]
    cases textData part.value with
    | some data => rfl
    | none => exact ih

theorem extractTextBody_eq (payload : Payload) :
    extractTextBody payload = match payload.top.findSome? textData with
      | some data => decodeBody data
      | none => .ok "" := by
  cases payload with
  | node part parts =>
    rw [extractTextBody, RoseTree.top, List.findSome?_cons, RoseTree.value]
    cases textData part with
    | some data => rfl
    | none => exact firstTextPart_eq parts

theorem finds_text_iff (payload : Payload) : FindsText payload ↔ WithinReach payload := by
  constructor
  · intro hfinds data hdata
    have hfound := hfinds.found data hdata
    have hnonempty : extractTextBody payload ≠ .ok "" := by
      intro hempty
      rw [hfinds.missing hempty] at hdata
      cases hdata
    rw [extractTextBody_eq] at hfound hnonempty
    cases hnear : payload.top.findSome? textData with
    | none =>
      rw [hnear] at hnonempty
      exact absurd rfl hnonempty
    | some near =>
      rw [hnear] at hfound hnonempty
      refine ⟨near, rfl, hfound, ?_⟩
      by_contra hnone
      refine hnonempty ((decodeBody_empty_iff near).mpr fun c hc => ?_)
      rw [← Option.not_isSome_iff_eq_none]
      exact fun hsome => hnone ⟨c, hc, hsome⟩
  · intro hreach
    constructor
    · intro data hdata
      obtain ⟨near, hnear, hsame, -⟩ := hreach data hdata
      rw [extractTextBody_eq, hnear]
      exact hsame
    · intro hempty
      cases hfirst : payload.first textData with
      | none => rfl
      | some data =>
        obtain ⟨near, hnear, -, c, hc, hsome⟩ := hreach data hfirst
        rw [extractTextBody_eq, hnear] at hempty
        rw [(decodeBody_empty_iff near).mp hempty c hc] at hsome
        cases hsome

def mailWithAttachment : Payload :=
  .node ⟨some "multipart/mixed", none⟩
    [.node ⟨some "multipart/alternative", none⟩
      [.node ⟨some "text/plain", some ⟨some "SGVsbG8"⟩⟩ [],
        .node ⟨some "text/html", some ⟨some "PGI-SGVsbG88L2I-"⟩⟩ []],
      .node ⟨some "application/pdf", some ⟨none⟩⟩ []]

/-- The text is not found. -/
theorem attached_text_missed :
    mailWithAttachment.first textData = some "SGVsbG8" ∧ decodeBody "SGVsbG8" = .ok "Hello" ∧
      extractTextBody mailWithAttachment = .ok "" ∧ ¬ FindsText mailWithAttachment := by
  refine ⟨by decide, by decide, rfl, fun h => ?_⟩
  have hnone := h.missing rfl
  revert hnone
  decide

end GmailBody
