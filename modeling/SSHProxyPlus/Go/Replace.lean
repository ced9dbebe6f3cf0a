import SSHProxyPlus.Go.Text

/-! `bytes.Replace` without a limit. -/
namespace Go

/-- `skip` counts the bytes of an occurrence already replaced. -/
def replaceFrom (old new : Bytes) : Nat → Bytes → Bytes
  | _, [] => []
  | skip + 1, _ :: s => replaceFrom old new skip s
  | 0, b :: s =>
      if old.isPrefixOf (b :: s) then new ++ replaceFrom old new (old.length - 1) s
      else b :: replaceFrom old new 0 s

/-- After each rune, valid or not; `more` counts the bytes of a rune begun. -/
def afterRunes (new : Bytes) : Nat → Bytes → Bytes
  | _, [] => []
  | more + 1, b :: s =>
      b :: if more = 0 then new ++ afterRunes new 0 s else afterRunes new more s
  | 0, b :: s =>
      let more := ((decodeRune (b :: s)).map fun c => c.utf8Size - 1).getD 0
      b :: if more = 0 then new ++ afterRunes new 0 s else afterRunes new more s

/-- An empty `old` matches at the start and after each rune. -/
def replaceAll (old new s : Bytes) : Bytes :=
  if old = [] then new ++ afterRunes new 0 s else replaceFrom old new 0 s

end Go
