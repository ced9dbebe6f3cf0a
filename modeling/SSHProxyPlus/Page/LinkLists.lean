import SSHProxyPlus.Page.Links

/-! What becomes of the links on the page: those it had stay, and those that come are to the
addresses that were to be linked to. -/
namespace SSHProxyPlus
namespace PageLinks
variable {page later : PageLinks}

/-- A link may be left out where another one contains its address. -/
structure Gains (page later : PageLinks) (hrefs : List (List Char)) : Prop where
  only : ∀ anchor ∈ later.anchors, anchor ∈ page.anchors ∨ anchor.href ∈ hrefs
  kept : ∀ anchor ∈ page.anchors, anchor ∈ later.anchors
  found : ∀ href ∈ hrefs, ∃ anchor ∈ later.anchors, href <:+: anchor.href

theorem Gains.refl (page : PageLinks) : page.Gains page [] :=
  ⟨fun _ member => .inl member, fun _ member => member, List.forall_mem_nil _⟩

theorem Gains.trans {last : PageLinks} {hrefs more : List (List Char)}
    (first : page.Gains later hrefs) (second : later.Gains last more) :
    page.Gains last (hrefs ++ more) := by
  constructor
  · intro anchor member
    rcases second.only anchor member with before | new
    · exact (first.only anchor before).imp_right fun new => List.mem_append_left _ new
    · exact .inr (List.mem_append_right _ new)
  · intro anchor member
    exact second.kept anchor (first.kept anchor member)
  · intro href member
    rcases List.mem_append.mp member with earlier | new
    · obtain ⟨anchor, there, inside⟩ := first.found href earlier
      exact ⟨anchor, second.kept anchor there, inside⟩
    · exact second.found href new

theorem mem_addLinkToList {href : List Char} (new : ¬ page.finds href = true)
    (session : SessionEntry) (list : ListId) (anchor : Anchor) :
    anchor ∈ (page.addLinkToList session href list).anchors ↔
      anchor = { href, text := session.displayText.getD "".toList } ∨ anchor ∈ page.anchors := by
  rw [addLinkToList, if_neg new]
  cases list with
  | sessionList =>
    simp only [anchors, List.mem_append, List.mem_cons]
    tauto
  | oldSessionList =>
    simp only [anchors, List.mem_append, List.mem_cons]
    tauto

theorem gains_addLinkToList (page : PageLinks) (session : SessionEntry) (href : List Char)
    (list : ListId) : page.Gains (page.addLinkToList session href list) [href] := by
  by_cases found : page.finds href = true
  · obtain ⟨anchor, member, inside⟩ := List.any_eq_true.mp found
    have stays : page.addLinkToList session href list = page := if_pos found
    rw [stays]
    constructor
    · exact fun _ member => .inl member
    · exact fun _ member => member
    · rintro _ same
      rw [List.mem_singleton.mp same]
      exact ⟨anchor, member, of_decide_eq_true inside⟩
  · constructor
    · intro anchor member
      rcases (mem_addLinkToList found session list anchor).mp member with rfl | old
      · exact .inr (List.mem_singleton_self _)
      · exact .inl old
    · exact fun anchor member => (mem_addLinkToList found session list anchor).mpr (.inr member)
    · intro _ same
      rw [List.mem_singleton.mp same]
      exact ⟨_, (mem_addLinkToList found session list _).mpr (.inl rfl), List.infix_refl href⟩

/-- Sessions that are added one after the other, each with a link of its own. -/
theorem gains_foldl {α : Type} {add : PageLinks → α → PageLinks} {address : α → List Char}
    (gains : ∀ (page : PageLinks) (a : α), page.Gains (add page a) [address a]) (page : PageLinks)
    (items : List α) :
    page.Gains (items.foldl add page) (items.map address) := by
  induction items generalizing page with
  | nil => exact Gains.refl page
  | cons item items ih => exact (gains page item).trans (ih (add page item))

theorem gains_addViewerSessionToList (page : PageLinks) (sessions : List SessionEntry) :
    page.Gains (page.addViewerSessionToList sessions) (sessions.map SessionEntry.viewerHref) :=
  gains_foldl (fun page session => page.gains_addLinkToList _ session.viewerHref _) page sessions

end PageLinks
end SSHProxyPlus
