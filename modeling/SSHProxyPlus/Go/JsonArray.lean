import SSHProxyPlus.Go.Struct

/-! Slices of Go values as JSON arrays, and an array whose elements stand on lines of
their own. -/
namespace Go

/-- A slice whose nil and empty values the program does not tell apart. Its elements are
decoded into fresh values. -/
def sliceCodec (c : Codec α) : Codec (List α) where
  zero := []
  empty items := items.isEmpty
  encode items := .arr (items.map c.encode)
  decode
    | .arr vs, _ => vs.mapM fun v => c.decode v c.zero
    | .null, _ => some []
    | _, _ => none

theorem sliceCodec_reads {c : Codec α} {f : α → α} (reads : ∀ a, c.ReadsAs a (f a))
    (items : List α) : (sliceCodec c).ReadsAs items (items.map f) := by
  change (items.map c.encode).mapM _ = _
  induction items with
  | nil => rfl
  | cons a items ih =>
    rw [List.map_cons, List.mapM_cons, ih, reads a]
    rfl

/-- One line for each element of the outermost array, and no other blanks. -/
def Layout.rows : Layout where
  inner depth := if depth = 0 then ['\n'] else []
  close depth := if depth = 0 then ['\n'] else []
  colon := []
  inner_blank depth := by cases depth <;> rfl
  close_blank depth := by cases depth <;> rfl
  colon_blank := List.all_nil

mutual
theorem render_row : ∀ (depth outer : Nat) (v : Json),
    render .rows (depth + 1) v = render .compact outer v
  | _, _, .null | _, _, .bool true | _, _, .bool false | _, _, .num _ | _, _, .str _
  | _, _, .arr [] | _, _, .obj [] => by simp only [render]
  | depth, outer, .arr (v :: vs) => by
    simp only [render]
    rw [render_row (depth + 1) (outer + 1) v, renderElements_row depth outer vs]
    rfl
  | depth, outer, .obj (m :: ms) => by
    simp only [render]
    rw [renderMember_row depth outer m, renderMembers_row depth outer ms]
    rfl

theorem renderElements_row : ∀ (depth outer : Nat) (vs : List Json),
    renderElements .rows (depth + 1) vs = renderElements .compact outer vs
  | _, _, [] => rfl
  | depth, outer, v :: vs => by
    simp only [renderElements]
    rw [render_row (depth + 1) (outer + 1) v, renderElements_row depth outer vs]
    rfl

theorem renderMember_row : ∀ (depth outer : Nat) (m : List Char × Json),
    renderMember .rows (depth + 1) m = renderMember .compact outer m
  | depth, outer, (key, v) => by
    simp only [renderMember]
    rw [render_row (depth + 1) (outer + 1) v]
    rfl

theorem renderMembers_row : ∀ (depth outer : Nat) (ms : List (List Char × Json)),
    renderMembers .rows (depth + 1) ms = renderMembers .compact outer ms
  | _, _, [] => rfl
  | depth, outer, m :: ms => by
    simp only [renderMembers]
    rw [renderMember_row depth outer m, renderMembers_row depth outer ms]
    rfl
end

theorem renderElements_rows (v : Json) (vs : List Json) :
    marshalText v ++ renderElements .rows 0 vs =
      [',', '\n'].intercalate ((v :: vs).map marshalText) ++ ['\n', ']'] := by
  induction vs generalizing v with
  | nil =>
    simp only [renderElements, List.map_cons, List.map_nil, List.intercalate_singleton]
    rfl
  | cons w vs ih =>
    have tail := ih w
    simp only [renderElements, List.map_cons, List.intercalate_cons_cons] at tail ⊢
    rw [render_row 0 0 w, ← marshalText, List.append_assoc, List.append_assoc, ← tail]
    rfl

theorem render_rows (v : Json) (vs : List Json) :
    render .rows 0 (.arr (v :: vs)) =
      ['[', '\n'] ++ ([',', '\n'].intercalate ((v :: vs).map marshalText) ++ ['\n', ']']) := by
  rw [← renderElements_rows, render, render_row 0 0 v]
  rfl

theorem utf8_intercalate (separator : List Char) (texts : List (List Char)) :
    utf8 (separator.intercalate texts) = (utf8 separator).intercalate (texts.map utf8) := by
  induction texts with
  | nil => rfl
  | cons text texts ih =>
    cases texts with
    | nil => simp
    | cons next texts =>
      rw [List.intercalate_cons_cons, utf8_append, utf8_append, ih]
      simp only [List.map_cons, List.intercalate_cons_cons]

/-- A slice in rows, as bytes. -/
theorem sliceCodec_rows (c : Codec α) (a : α) (items : List α) :
    utf8 (render .rows 0 ((sliceCodec c).encode (a :: items))) =
      lit "[\n" ++ (lit ",\n").intercalate ((a :: items).map c.marshal) ++ lit "\n]" := by
  have rows := render_rows (c.encode a) (items.map c.encode)
  rw [← List.map_cons, List.map_map] at rows
  have text : (a :: items).map c.marshal = ((a :: items).map (marshalText ∘ c.encode)).map utf8 := by
    rw [List.map_map]
    rfl
  change utf8 (render .rows 0 (.arr ((a :: items).map c.encode))) = _
  rw [rows, text, utf8_append, utf8_append, utf8_intercalate, ← List.append_assoc]
  rfl

end Go
