import SSHProxyPlus.Go.JsonArray

/-! Values written one on each line: what is marshalled has no line breaks of its own, so that
the lines are found again. -/
namespace Go

theorem hexDigit_newline : ∀ n < 16, hexDigit n ≠ '\n' := by decide

theorem escapeUnit_newline (n : Nat) : '\n' ∉ escapeUnit n := by
  have digit (k : Nat) : '\n' ≠ hexDigit (k % 16) :=
    (hexDigit_newline _ (Nat.mod_lt k (by decide))).symm
  simp only [escapeUnit, List.mem_cons, List.not_mem_nil, or_false, digit]
  decide

theorem escapeChar_newline (c : Char) : '\n' ∉ escapeChar c := by
  unfold escapeChar
  split_ifs with _ _ newline
  · decide
  · decide
  · decide
  · decide
  · decide
  · exact escapeUnit_newline c.toNat
  · intro member
    exact newline (List.mem_singleton.mp member).symm

theorem quote_newline (text : List Char) : '\n' ∉ quote text := by
  intro member
  rcases List.mem_append.mp member with front | back
  · rcases List.mem_cons.mp front with same | inside
    · contradiction
    · obtain ⟨c, -, escaped⟩ := List.mem_flatMap.mp inside
      exact escapeChar_newline c escaped
  · have same := List.mem_singleton.mp back
    contradiction

theorem literal_newline (value : Number) : '\n' ∉ value.literal := by
  intro member
  have chars := List.all_eq_true.mp (isNumber_chars value.valid) _ member
  contradiction

mutual
theorem render_newline : ∀ (depth : Nat) (v : Json), '\n' ∉ render .compact depth v
  | _, .null | _, .bool true | _, .bool false | _, .arr [] | _, .obj [] => by
    rw [render]
    decide
  | _, .num value => by
    rw [render]
    exact literal_newline value
  | _, .str text => by
    rw [render]
    exact quote_newline text
  | depth, .arr (v :: vs) => by
    have first := render_newline (depth + 1) v
    have rest := renderElements_newline depth vs
    simp only [render, Layout.compact, List.nil_append, List.mem_cons, List.mem_append, not_or]
    exact ⟨by decide, first, rest⟩
  | depth, .obj (m :: ms) => by
    have first := renderMember_newline depth m
    have rest := renderMembers_newline depth ms
    simp only [render, Layout.compact, List.nil_append, List.mem_cons, List.mem_append, not_or]
    exact ⟨by decide, first, rest⟩

theorem renderElements_newline : ∀ (depth : Nat) (vs : List Json),
    '\n' ∉ renderElements .compact depth vs
  | _, [] => by
    rw [renderElements]
    exact List.not_mem_cons_of_ne_of_not_mem (by decide) List.not_mem_nil
  | depth, v :: vs => by
    have first := render_newline (depth + 1) v
    have rest := renderElements_newline depth vs
    simp only [renderElements, Layout.compact, List.nil_append, List.mem_cons, List.mem_append,
      not_or]
    exact ⟨by decide, first, rest⟩

theorem renderMember_newline : ∀ (depth : Nat) (m : List Char × Json),
    '\n' ∉ renderMember .compact depth m
  | depth, (key, v) => by
    have value := render_newline (depth + 1) v
    simp only [renderMember, Layout.compact, List.nil_append, List.mem_cons, List.mem_append, not_or]
    exact ⟨quote_newline key, by decide, value⟩

theorem renderMembers_newline : ∀ (depth : Nat) (ms : List (List Char × Json)),
    '\n' ∉ renderMembers .compact depth ms
  | _, [] => by
    rw [renderMembers]
    exact List.not_mem_cons_of_ne_of_not_mem (by decide) List.not_mem_nil
  | depth, m :: ms => by
    have first := renderMember_newline depth m
    have rest := renderMembers_newline depth ms
    simp only [renderMembers, Layout.compact, List.nil_append, List.mem_cons, List.mem_append,
      not_or]
    exact ⟨by decide, first, rest⟩
end

theorem marshalText_newline (v : Json) : '\n' ∉ marshalText v := render_newline 0 v

/-- The lines of a text in which each one is ended, and the nothing after the last. -/
theorem splitOn_lines {α : Type} [DecidableEq α] {x : α} {lines : List (List α)}
    (apart : ∀ line ∈ lines, x ∉ line) :
    (lines.flatMap (· ++ [x])).splitOn x = lines ++ [[]] := by
  induction lines with
  | nil => rfl
  | cons line lines ih =>
    obtain ⟨first, others⟩ := List.forall_mem_cons.mp apart
    rw [List.flatMap_cons, List.append_assoc, List.singleton_append,
      List.splitOn_append_cons_self_of_not_mem first, ih others, List.cons_append]

end Go
