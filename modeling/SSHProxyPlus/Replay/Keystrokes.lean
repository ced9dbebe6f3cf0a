import SSHProxyPlus.Replay.Event

/-! The last loop over the text of keystrokes as the page runs it: an index moves over a text
that the turns make longer. -/
namespace SSHProxyPlus
open Browser Go

/-- Control characters, less the two that a pane of text shows. -/
def offends (c : Char) : Prop := c.toNat < 0x20 ∧ c.toNat ≠ 9 ∧ c.toNat ≠ 10

instance : DecidablePred offends := fun c =>
  inferInstanceAs (Decidable (c.toNat < 0x20 ∧ c.toNat ≠ 9 ∧ c.toNat ≠ 10))

/-- The code of a character in brackets. -/
def bracketedCode (c : Char) : List Char := "[\\".toList ++ decimal c.toNat ++ [']']

/-- The loop, with the turns it may take; `none` where they do not suffice. A string is the list
of its code units, and the length is read anew in each turn. -/
def nameControlsLoop : Nat → Nat → List Char → Option (List Char)
  | 0, _, _ => none
  | turns + 1, index, data =>
      match data[index]? with
      | none => some data
      | some c =>
          if offends c then
            nameControlsLoop turns (index + 1)
              (data.take index ++ bracketedCode c ++ data.drop (index + 1))
          else nameControlsLoop turns (index + 1) data

/-- `process_keystrokes` with its loops as they are. -/
def processKeystrokesLoop (turns : Nat) (data : List Char) : Option (List Char) :=
  nameControlsLoop turns 0 (replaceEach signalList (replaceEach replaceList data))

/-- From some number of turns on the loop is through, with that result. -/
def EndsWith (loop : Nat → Option (List Char)) (result : List Char) : Prop :=
  ∃ turns, ∀ more, loop (turns + more) = some result

@[simp] theorem nameControls_nil : nameControls [] = [] := rfl

theorem nameControls_cons (c : Char) (data : List Char) :
    nameControls (c :: data) =
      (if offends c then bracketedCode c else [c]) ++ nameControls data := rfl

/-- What is written for an offending character offends nobody. -/
theorem bracketedCode_clean {c : Char} (offending : offends c) :
    ∀ d ∈ bracketedCode c, ¬ offends d := by
  have digits : ∀ code < 0x20,
      (("[\\".toList ++ decimal code ++ [']']).all fun d => !decide (offends d)) = true := by decide
  simpa only [bracketedCode, List.all_eq_true, Bool.not_eq_true', decide_eq_false_iff_not] using
    digits c.toNat offending.1

theorem nameControls_clean (data : List Char) : ∀ c ∈ nameControls data, ¬ offends c := by
  induction data with
  | nil => exact List.forall_mem_nil _
  | cons c data ih =>
    intro d member
    rw [nameControls_cons] at member
    rcases List.mem_append.mp member with here | later
    · split at here
      · next offending => exact bracketedCode_clean offending d here
      · next harmless => exact List.mem_singleton.mp here ▸ harmless
    · exact ih d later

theorem nameControlsLoop_end (turns : Nat) (data : List Char) :
    nameControlsLoop (turns + 1) data.length data = some data := by
  simp only [nameControlsLoop, List.getElem?_eq_none (Nat.le_refl data.length)]

/-- One turn at the character that follows what was scanned. -/
theorem nameControlsLoop_turn (turns : Nat) (scanned : List Char) (c : Char) (rest : List Char) :
    nameControlsLoop (turns + 1) scanned.length (scanned ++ c :: rest) =
      nameControlsLoop turns (scanned.length + 1)
        (scanned ++ (if offends c then bracketedCode c else [c]) ++ rest) := by
  have here : (scanned ++ c :: rest)[scanned.length]? = some c := by simp
  simp only [nameControlsLoop, here]
  split
  · rw [List.take_left, List.drop_append, List.drop_of_length_le (Nat.le_succ _)]
    simp
  · simp

/-- The turns over characters that do not offend change nothing. -/
theorem nameControlsLoop_skip {clean : List Char} (harmless : ∀ c ∈ clean, ¬ offends c)
    (turns : Nat) (scanned rest : List Char) :
    nameControlsLoop (clean.length + turns) scanned.length (scanned ++ clean ++ rest) =
      nameControlsLoop turns (scanned ++ clean).length (scanned ++ clean ++ rest) := by
  induction clean generalizing scanned with
  | nil => simp
  | cons c clean ih =>
    have first := nameControlsLoop_turn (clean.length + turns) scanned c (clean ++ rest)
    rw [if_neg (harmless c List.mem_cons_self)] at first
    have later := ih (fun d member => harmless d (List.mem_cons_of_mem c member)) (scanned ++ [c])
    rw [List.length_cons, Nat.add_right_comm, List.append_assoc, List.cons_append, first]
    simpa using later

/-- The measure is the text still to be written: each turn moves the index by one, and what a
turn inserts is written already, so that it is passed over. -/
theorem nameControlsLoop_eq (more : Nat) (scanned rest : List Char) :
    nameControlsLoop ((nameControls rest).length + 1 + more) scanned.length (scanned ++ rest) =
      some (scanned ++ nameControls rest) := by
  induction rest generalizing scanned with
  | nil =>
    rw [List.append_nil, nameControls_nil, List.append_nil]
    exact (congrArg (fun turns => nameControlsLoop turns _ _) (by simp; omega)).trans
      (nameControlsLoop_end more scanned)
  | cons c rest ih =>
    obtain ⟨first, tail, written, clean⟩ : ∃ first tail,
        (if offends c then bracketedCode c else [c]) = first :: tail ∧
          ∀ d ∈ tail, ¬ offends d := by
      split
      · next offending =>
        exact ⟨'[', _, rfl, fun d member =>
          bracketedCode_clean offending d (List.mem_cons_of_mem _ member)⟩
      · exact ⟨c, [], rfl, List.forall_mem_nil _⟩
    have skip := nameControlsLoop_skip clean ((nameControls rest).length + 1 + more)
      (scanned ++ [first]) rest
    have after := ih (scanned ++ [first] ++ tail)
    rw [nameControls_cons, written]
    have turns : (first :: tail ++ nameControls rest).length + 1 + more =
        tail.length + ((nameControls rest).length + 1 + more) + 1 := by
      simp only [List.length_append, List.length_cons]
      omega
    rw [turns, nameControlsLoop_turn, written]
    simp only [List.length_append, List.length_singleton, List.append_assoc,
      List.cons_append] at skip after ⊢
    exact skip.trans after

/-- The loop ends and replaces the offending characters where they stand, and nothing else;
what is returned holds none. -/
theorem keystrokes_end_clean (data : List Char) :
    EndsWith (fun turns => processKeystrokesLoop turns data) (processKeystrokes data) ∧
    (∀ c ∈ processKeystrokes data, 0x20 ≤ c.toNat ∨ c = '\t' ∨ c = '\n') ∧
    ∀ text : List Char, EndsWith (fun turns => nameControlsLoop turns 0 text)
      (text.flatMap fun c => if offends c then bracketedCode c else [c]) := by
  have ends : ∀ text, EndsWith (fun turns => nameControlsLoop turns 0 text) (nameControls text) :=
    fun text => ⟨(nameControls text).length + 1, fun more => nameControlsLoop_eq more [] text⟩
  refine ⟨ends _, fun c member => ?_, ends⟩
  have clean := nameControls_clean _ c member
  unfold offends at clean
  by_cases low : c.toNat < 0x20
  · by_cases tab : c.toNat = 9
    · exact .inr (.inl (Char.toNat_inj.mp tab))
    · by_cases feed : c.toNat = 10
      · exact .inr (.inr (Char.toNat_inj.mp feed))
      · exact absurd ⟨low, tab, feed⟩ clean
  · exact .inl (Nat.le_of_not_lt low)

end SSHProxyPlus
