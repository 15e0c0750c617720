import Benjamin.JsonReader

/-!
# Indented documents

`json.dumps` with `indent=2`: every item stands on a line of its own, two spaces to a level.
What it has written `json.loads` reads, and with `sort_keys` the fields come in the order of
their keys.
-/
namespace IndentedJson

open PyBase RecordModels SeparatedText JsonReader CanonicalJson

def newline (depth : Nat) : List Char := '\n' :: List.replicate (2 * depth) ' '

def lineLayout (depth : Nat) : Layout := ⟨String.ofList (',' :: newline depth), ": ", false, false⟩

def block (depth : Nat) (bracket close : Char) : List (List Char) → List Char
  | [] => [bracket, close]
  | x :: xs => bracket :: (newline (depth + 1) ++ (x ++
      (further (lineLayout (depth + 1)) id xs ++ (newline depth ++ [close]))))

mutual
def indented (depth : Nat) : Json → List Char
  | .arr items => block depth '[' ']' (indentedItems (depth + 1) items)
  | .obj fields => block depth '{' '}' (indentedFields (depth + 1) fields)
  | j => JsonReader.text (lineLayout depth) j
def indentedItems (depth : Nat) : List Json → List (List Char)
  | [] => []
  | item :: rest => indented depth item :: indentedItems depth rest
def indentedFields (depth : Nat) : Dict → List (List Char)
  | [] => []
  | (key, value) :: rest =>
    memberOf (lineLayout depth) (fun _ => indented depth value) (key, value) ::
      indentedFields depth rest
end

/-- `json.dumps(j, ensure_ascii=False, indent=2)`. -/
def dumpsIndented (j : Json) : String := String.ofList (indented 0 j)

mutual
def sortedJson : Json → Json
  | .arr items => .arr (sortedItems items)
  | .obj fields => .obj (sorted (sortedFields fields))
  | j => j
def sortedItems : List Json → List Json
  | [] => []
  | item :: rest => sortedJson item :: sortedItems rest
def sortedFields : Dict → Dict
  | [] => []
  | (key, value) :: rest => (key, sortedJson value) :: sortedFields rest
end

/-- `json.dumps(j, ensure_ascii=False, indent=2, sort_keys=True)`. -/
def dumpsSorted (j : Json) : String := dumpsIndented (sortedJson j)

theorem indentedItems_map (depth : Nat) (items : List Json) :
    indentedItems depth items = items.map (indented depth) := by
  induction items with
  | nil => rfl
  | cons item rest ih => rw [indentedItems, ih, List.map_cons]

def indentedMember (depth : Nat) (field : String × Json) : List Char :=
  memberOf (lineLayout depth) (indented depth) field

theorem indentedFields_map (depth : Nat) (fields : Dict) :
    indentedFields depth fields = fields.map (indentedMember depth) := by
  induction fields with
  | nil => rfl
  | cons field rest ih =>
    obtain ⟨key, value⟩ := field
    rw [indentedFields, ih, List.map_cons]
    rfl

theorem plain_lineLayout (depth : Nat) : Plain (lineLayout depth) where
  item := by
    refine ⟨newline depth, by simp [lineLayout], ?_⟩
    simp [newline, isWhite]
  key := ⟨[' '], by simp [lineLayout], rfl⟩
  unsorted := rfl

theorem newline_white (depth : Nat) : (newline depth).all isWhite = true := by
  simp [newline, isWhite]

theorem newline_stops (depth : Nat) (rest : List Char) : Stopped Follows (newline depth ++ rest) :=
  stopped_cons (by decide)

theorem further_map {α : Type} (l : Layout) (f : α → List Char) (xs : List α) :
    further l id (xs.map f) = further l f xs := by
  simp [further, List.flatMap_map]

section Reading

variable {floats : Floats}

theorem block_cons {α : Type} (depth : Nat) (bracket close : Char) (f : α → List Char) (x : α)
    (xs : List α) : block depth bracket close ((x :: xs).map f) =
      bracket :: (newline (depth + 1) ++ (f x ++
        (further (lineLayout (depth + 1)) f xs ++ (newline depth ++ [close])))) := by
  rw [List.map_cons, block, further_map]

theorem block_reads {α : Type} {item : List Char → Option (α × List Char)} {f : α → List Char}
    {close : Char} (hclose : close = ']' ∨ close = '}') (depth : Nat) {x : α} {xs : List α}
    (h : ∀ y ∈ x :: xs, Reads item f y) {n : Nat} (hn : xs.length < n) (rest : List Char) :
    bracketed item close n (newline (depth + 1) ++ (f x ++
      (further (lineLayout (depth + 1)) f xs ++ (newline depth ++ close :: rest)))) =
        some (x :: xs, rest) :=
  bracketed_spaced (plain_lineLayout (depth + 1)) hclose (newline_white _) (newline_white _)
    (fun _ => newline_stops _ _) h hn

theorem block_length {α : Type} (depth : Nat) (bracket close : Char) (f : α → List Char) {x : α}
    {xs : List α} {y : α} (hy : y ∈ x :: xs) :
    (f y).length + 2 ≤ (block depth bracket close ((x :: xs).map f)).length := by
  have := mem_length (lineLayout (depth + 1)) f hy
  rw [block_cons]
  simp only [List.length_cons, List.length_append] at this ⊢
  omega

theorem block_text {α : Type} (depth : Nat) (bracket close : Char) (f : α → List Char) (x : α)
    (xs : List α) (rest : List Char) : block depth bracket close ((x :: xs).map f) ++ rest =
      bracket :: (newline (depth + 1) ++ (f x ++
        (further (lineLayout (depth + 1)) f xs ++ (newline depth ++ close :: rest)))) := by
  rw [block_cons]
  simp

theorem lines_length {α : Type} (depth : Nat) (close : Char) (f : α → List Char) (x : α)
    (xs : List α) (rest : List Char) :
    xs.length < (newline (depth + 1) ++ (f x ++
      (further (lineLayout (depth + 1)) f xs ++ (newline depth ++ close :: rest)))).length := by
  have := further_length f (plain_lineLayout (depth + 1)) xs
  simp only [List.length_append, List.length_cons]
  omega

theorem indented_reads {j : Json} (h : Genuine (IsFloat floats) j) :
    ∀ depth n, (indented depth j).length ≤ n → Reads (value floats (n + 1)) (indented depth) j := by
  have hscalar : ∀ {j : Json}, Genuine (IsFloat floats) j →
      (∀ depth, indented depth j = JsonReader.text (lineLayout depth) j) →
      ∀ depth n, (indented depth j).length ≤ n →
        Reads (value floats (n + 1)) (indented depth) j := by
    intro j hj htext depth n hn
    rw [htext] at hn
    have hreads := value_reads (plain_lineLayout depth) hj n hn
    rw [Reads, ← htext] at hreads
    exact hreads
  induction h with
  | null => exact hscalar .null fun _ => rfl
  | bool b => exact hscalar (.bool b) fun _ => rfl
  | int m => exact hscalar (.int m) fun _ => rfl
  | float h => exact hscalar (.float h) fun _ => rfl
  | str s => exact hscalar (.str s) fun _ => rfl
  | @arr items each ih =>
    intro depth n hn
    have htext : indented depth (.arr items) =
        block depth '[' ']' (items.map (indented (depth + 1))) := by
      rw [indented, indentedItems_map]
    rw [htext] at hn
    rw [Reads, htext]
    cases items with
    | nil =>
      refine ⟨⟨'[', [']'], rfl, by decide⟩, fun rest _ => ?_⟩
      have hnil : ∀ k, bracketed (value floats n) ']' k (']' :: rest) = some ([], rest) :=
        bracketed_nil rfl
      change value floats (n + 1) ('[' :: ']' :: rest) = _
      simp [value, hnil]
    | cons x xs =>
      refine ⟨⟨'[', _, rfl, by decide⟩, fun rest _ => ?_⟩
      have hfirst : x ∈ x :: xs := List.mem_cons_self
      have hbound := block_length depth '[' ']' (indented (depth + 1)) hfirst
      obtain ⟨m, rfl⟩ : ∃ m, n = m + 1 := ⟨n - 1, by omega⟩
      have hreads : ∀ y ∈ x :: xs, Reads (value floats (m + 1)) (indented (depth + 1)) y := by
        intro y hy
        have := block_length depth '[' ']' (indented (depth + 1)) hy
        exact ih y hy (depth + 1) m (by omega)
      have hlength := lines_length depth ']' (indented (depth + 1)) x xs rest
      have hbracketed := block_reads (.inl rfl) depth hreads hlength rest
      rw [block_text]
      simp only [value, hbracketed]
      rfl
  | @obj fields keys values ih =>
    intro depth n hn
    have htext : indented depth (.obj fields) =
        block depth '{' '}' (fields.map (indentedMember (depth + 1))) := by
      rw [indented, indentedFields_map]
    rw [htext] at hn
    rw [Reads, htext]
    cases fields with
    | nil =>
      refine ⟨⟨'{', ['}'], rfl, by decide⟩, fun rest _ => ?_⟩
      have hnil : ∀ k, bracketed (member (value floats n)) '}' k ('}' :: rest) =
          some ([], rest) := bracketed_nil rfl
      change value floats (n + 1) ('{' :: '}' :: rest) = _
      simp [value, hnil, Dict.update]
    | cons x xs =>
      refine ⟨⟨'{', _, rfl, by decide⟩, fun rest _ => ?_⟩
      have hfirst : x ∈ x :: xs := List.mem_cons_self
      have hbound := block_length depth '{' '}' (indentedMember (depth + 1)) hfirst
      obtain ⟨m, rfl⟩ : ∃ m, n = m + 1 := ⟨n - 1, by omega⟩
      have hreads : ∀ y ∈ x :: xs,
          Reads (member (value floats (m + 1))) (indentedMember (depth + 1)) y := by
        intro y hy
        have := block_length depth '{' '}' (indentedMember (depth + 1)) hy
        have hinner : (indented (depth + 1) y.2).length ≤
            (indentedMember (depth + 1) y).length := by
          simp only [indentedMember, memberOf, List.length_cons, List.length_append]
          omega
        exact member_reads (plain_lineLayout (depth + 1)) (ih y hy (depth + 1) m (by omega))
      have hlength := lines_length depth '}' (indentedMember (depth + 1)) x xs rest
      have hbracketed := block_reads (.inr rfl) depth hreads hlength rest
      have hupdate : Dict.update [] (x :: xs) = x :: xs := update_distinct [] keys
      rw [block_text]
      simp only [value, hbracketed, Option.map_some, hupdate]
      rfl

theorem loads_indented {j : Json} (h : Genuine (IsFloat floats) j) {blank : List Char}
    (hblank : blank.all isWhite = true) (hstops : Stopped Follows blank) :
    loads floats (String.ofList (indented 0 j ++ blank)) = some j := by
  have hlength : (indented 0 j ++ blank).length =
      (String.ofList (indented 0 j ++ blank)).length := by
    rw [String.length_ofList]
  have hfits : (indented 0 j).length ≤ (String.ofList (indented 0 j ++ blank)).length := by
    rw [List.length_append] at hlength
    omega
  obtain ⟨⟨c, cs, hc, hopens⟩, hread⟩ := indented_reads h 0 _ hfits
  have hvalue := hread blank hstops
  have hskip : skipWhite (indented 0 j ++ blank) = indented 0 j ++ blank := by
    rw [hc]
    exact skipWhite_opens hopens.1 _
  have hend : skipWhite blank = [] := by simpa [skipWhite] using hblank
  rw [loads, String.toList_ofList, hskip, hvalue]
  simp [hend]

theorem loads_dumpsIndented {j : Json} (h : Genuine (IsFloat floats) j) :
    loads floats (dumpsIndented j) = some j := by
  have hloads : loads floats (String.ofList (indented 0 j ++ [])) = some j :=
    loads_indented h rfl (by simp [Stopped])
  rwa [List.append_nil] at hloads

/-- The document with the line ended. -/
theorem loads_dumpsIndented_line {j : Json} (h : Genuine (IsFloat floats) j) :
    loads floats (dumpsIndented j ++ "\n") = some j := by
  have htext : dumpsIndented j ++ "\n" = String.ofList (indented 0 j ++ ['\n']) := by
    rw [dumpsIndented, String.ofList_append]
  rw [htext]
  exact loads_indented h rfl (stopped_cons (by decide))

end Reading

theorem sortedItems_map (items : List Json) : sortedItems items = items.map sortedJson := by
  induction items with
  | nil => rfl
  | cons item rest ih => rw [sortedItems, ih, List.map_cons]

theorem sortedFields_map (fields : Dict) :
    sortedFields fields = fields.map fun field => (field.1, sortedJson field.2) := by
  induction fields with
  | nil => rfl
  | cons field rest ih =>
    obtain ⟨key, value⟩ := field
    rw [sortedFields, ih, List.map_cons]

theorem sortedJson_obj (fields : Dict) : sortedJson (.obj fields) =
    .obj (sorted (fields.map fun field => (field.1, sortedJson field.2))) := by
  rw [sortedJson, sortedFields_map]

theorem genuine_sortedJson {IsFloat : String → Prop} {j : Json} (h : Genuine IsFloat j) :
    Genuine IsFloat (sortedJson j) := by
  induction h with
  | null => exact .null
  | bool b => exact .bool b
  | int m => exact .int m
  | float h => exact .float h
  | str s => exact .str s
  | @arr items each ih =>
    rw [sortedJson, sortedItems_map]
    refine .arr fun item hitem => ?_
    obtain ⟨original, horiginal, rfl⟩ := List.mem_map.mp hitem
    exact ih original horiginal
  | @obj fields keys values ih =>
    rw [sortedJson_obj]
    refine .obj ?_ fun field hfield => ?_
    · refine ((sorted_perm _).map Prod.fst).nodup_iff.mpr ?_
      simpa [List.map_map, Function.comp_def] using keys
    · have hmem := (sorted_perm _).mem_iff.mp hfield
      obtain ⟨original, horiginal, rfl⟩ := List.mem_map.mp hmem
      exact ih original horiginal

theorem loads_dumpsSorted {floats : Floats} {j : Json} (h : Genuine (IsFloat floats) j) :
    loads floats (dumpsSorted j) = some (sortedJson j) :=
  loads_dumpsIndented (genuine_sortedJson h)

def dumpedField (l : Layout) (field : String × Json) : String × String :=
  (field.1, dumpsWith l field.2)

theorem dumpsWith_sorted (l : Layout) (hl : l.sortKeys = true) (fields : Dict) :
    dumpsWith l (.obj fields) = r"{" ++ l.itemSeparator.intercalate
      ((sorted (fields.map (dumpedField l))).map fun kv =>
        quote l.ensureAscii kv.1 ++ l.keySeparator ++ kv.2) ++ r"}" := by
  rw [dumpsWith, dumpsFields_map, hl, ← sortFields_eq]
  rfl

theorem dumpsWith_sortKeys {IsFloat : String → Prop} (l : Layout) {j : Json}
    (h : Genuine IsFloat j) : dumpsWith { l with sortKeys := true } j =
      dumpsWith { l with sortKeys := false } (sortedJson j) := by
  induction h with
  | null => rfl
  | bool b => cases b <;> rfl
  | int n => rfl
  | float h => rfl
  | str s => rfl
  | @arr items each ih =>
    have hitems : items.map (dumpsWith { l with sortKeys := true }) =
        (items.map sortedJson).map (dumpsWith { l with sortKeys := false }) := by
      rw [List.map_map]
      exact List.map_congr_left ih
    rw [sortedJson, sortedItems_map, dumpsWith_arr, dumpsWith_arr, hitems]
  | @obj fields keys values ih =>
    have hfields : fields.map (dumpedField { l with sortKeys := true }) =
        (fields.map fun field => (field.1, sortedJson field.2)).map
          (dumpedField { l with sortKeys := false }) := by
      rw [List.map_map]
      refine List.map_congr_left fun field hfield => ?_
      exact congrArg (Prod.mk field.1) (ih field hfield)
    have hsorted := map_sorted (dumpedField { l with sortKeys := false }) (fun _ => rfl)
      (fields.map fun field => (field.1, sortedJson field.2))
    rw [sortedJson_obj, dumpsWith_obj { l with sortKeys := false } rfl,
      dumpsWith_sorted { l with sortKeys := true } rfl, hfields, ← hsorted, List.map_map]
    rfl

/-- A call of `json.dumps`: on one line, or with `indent=2`. -/
inductive DumpsCall where
  | line (l : Layout)
  | indented (sortKeys : Bool)

namespace DumpsCall

def sortKeys : DumpsCall → Bool
  | .line l => l.sortKeys
  | .indented sortKeys => sortKeys

def text : DumpsCall → Json → String
  | .line l, j => dumpsWith l j
  | .indented true, j => dumpsSorted j
  | .indented false, j => dumpsIndented j

def arranged (c : DumpsCall) (j : Json) : Json := if c.sortKeys then sortedJson j else j

/-- Besides the comma and the colon the separators are white space. -/
def Spaced : DumpsCall → Prop
  | .line l => Plain { l with sortKeys := false }
  | .indented _ => True

theorem loads_text {floats : Floats} {c : DumpsCall} (hc : c.Spaced) {j : Json}
    (h : Genuine (IsFloat floats) j) : loads floats (c.text j) = some (c.arranged j) := by
  match c, hc with
  | .line ⟨item, key, ascii, true⟩, hplain =>
    have hsorted := dumpsWith_sortKeys ⟨item, key, ascii, true⟩ h
    exact (congrArg (loads floats) hsorted).trans (loads_dumpsWith hplain (genuine_sortedJson h))
  | .line ⟨_, _, _, false⟩, hplain => exact loads_dumpsWith hplain h
  | .indented true, _ => exact loads_dumpsSorted h
  | .indented false, _ => exact loads_dumpsIndented h

theorem block_braces (depth : Nat) (items : List (List Char)) : ∃ inner,
    block depth '{' '}' items = '{' :: (inner ++ ['}']) := by
  cases items with
  | nil => exact ⟨[], rfl⟩
  | cons x xs =>
    refine ⟨newline (depth + 1) ++ (x ++
      (further (lineLayout (depth + 1)) id xs ++ newline depth)), ?_⟩
    simp [block]

theorem dumpsIndented_braces (d : Dict) : ∃ inner,
    (dumpsIndented (.obj d)).toList = '{' :: (inner ++ ['}']) := by
  obtain ⟨inner, hinner⟩ := block_braces 0 (indentedFields 1 d)
  refine ⟨inner, ?_⟩
  rw [dumpsIndented, String.toList_ofList, IndentedJson.indented, hinner]

theorem text_braces (c : DumpsCall) (d : Dict) : ∃ inner,
    (c.text (.obj d)).toList = '{' :: (inner ++ ['}']) := by
  match c with
  | .line l =>
    rw [text, dumpsWith]
    exact ⟨_, toList_between '{' '}' _⟩
  | .indented true =>
    rw [text, dumpsSorted, sortedJson_obj]
    exact dumpsIndented_braces _
  | .indented false => exact dumpsIndented_braces d

end DumpsCall

end IndentedJson
