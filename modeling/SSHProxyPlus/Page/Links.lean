import Mathlib.Data.List.Infix
import Mathlib.Data.List.Induction
import Mathlib.Data.List.Nodup

/-! The lists of links on the page, and what the replies of the proxy add to them. A link is looked
for by a text that its address contains. Which one is marked as selected is left out. -/
namespace SSHProxyPlus

/-- A session in a reply of the proxy, or in its list of finished sessions. -/
structure SessionEntry where
  key : List Char
  active : Bool := true
  length : Int := 0
  filename : Option (List Char) := none
  displayText : Option (List Char) := none
  secret : Option (List Char) := none
deriving DecidableEq

structure Anchor where
  href : List Char
  text : List Char
deriving DecidableEq

/-- The links of the two lists, the first one at the top, and those that are elsewhere. -/
structure PageLinks where
  sessionList : List Anchor := []
  oldSessionList : List Anchor := []
  elsewhere : List Anchor := []
deriving DecidableEq

inductive ListId where
  | sessionList
  | oldSessionList

/-- The time of day in an ISO date. -/
def secondsToStr (sec : Int) : List Char :=
  let pair (n : Nat) : List Char := [Nat.digitChar (n / 10), Nat.digitChar (n % 10)]
  let time := (sec % 86400).toNat
  pair (time / 3600) ++ [':'] ++ pair (time / 60 % 60) ++ [':'] ++ pair (time % 60)

namespace SessionEntry
variable (session : SessionEntry)

def shownLength : List Char :=
  session.key ++ " (".toList ++ secondsToStr session.length ++ [')']

def liveHref : List Char := "#live&".toList ++ session.key

def viewerHref : List Char :=
  "#signed-viewer&".toList ++ session.secret.getD "undefined".toList ++ ['/'] ++ session.key

end SessionEntry

namespace PageLinks
variable (page : PageLinks)

def anchors : List Anchor := page.elsewhere ++ page.sessionList ++ page.oldSessionList

/-- Whether `a[href*='text']` finds a link. -/
def finds (text : List Char) : Bool := page.anchors.any fun anchor => text <:+: anchor.href

def addLinkToList (session : SessionEntry) (href : List Char) (list : ListId) : PageLinks :=
  if page.finds href then page
  else
    let anchor := { href, text := session.displayText.getD "".toList }
    match list with
    | .sessionList => { page with sessionList := anchor :: page.sessionList }
    | .oldSessionList => { page with oldSessionList := anchor :: page.oldSessionList }

/-- A session that is neither active nor in a file ends the loop. -/
def addSessionToList : PageLinks → List SessionEntry → PageLinks
  | page, [] => page
  | page, session :: sessions =>
      let shown := { session with
        displayText := some (session.displayText.getD session.shownLength) }
      if session.active then
        addSessionToList (page.addLinkToList shown session.liveHref .sessionList) sessions
      else match session.filename with
        | none => page
        | some filename =>
            addSessionToList
              (page.addLinkToList shown ("#replay&".toList ++ filename) .oldSessionList) sessions

def addViewerSessionToList (sessions : List SessionEntry) : PageLinks :=
  sessions.foldl (fun page session =>
    page.addLinkToList { session with displayText := some session.shownLength } session.viewerHref
      (if session.active then .sessionList else .oldSessionList)) page

/-- The list is emptied, and the reply comes. -/
def refresh (reply : List SessionEntry) : PageLinks :=
  { page with sessionList := [] }.addSessionToList reply

def refreshes (replies : List (List SessionEntry)) : PageLinks := replies.foldl refresh page

/-- The addresses in the list of active sessions. -/
def hrefs : List (List Char) := page.sessionList.map Anchor.href

end PageLinks

/-- A link more, if none is there that contains it. -/
def addHref (hrefs : List (List Char)) (href : List Char) : List (List Char) :=
  if ∃ present ∈ hrefs, href <:+: present then hrefs else href :: hrefs

theorem mem_foldl_addHref {links : List (List Char)} {href : List Char}
    (member : href ∈ links.foldl addHref []) : href ∈ links := by
  induction links using List.reverseRecOn with
  | nil => exact member
  | append_singleton links last ih =>
    rw [List.foldl_append, List.foldl_cons, List.foldl_nil, addHref] at member
    split at member
    · exact List.mem_append_left _ (ih member)
    · obtain rfl | old := List.mem_cons.mp member
      · exact List.mem_append_right _ List.mem_cons_self
      · exact List.mem_append_left _ (ih old)

/-- All links come to be there unless one is contained in one that comes before it. -/
theorem foldl_addHref_perm {links : List (List Char)} (distinct : links.Nodup) :
    (links.foldl addHref []).Perm links ↔
      links.Pairwise fun earlier later => ¬ later <:+: earlier := by
  induction links using List.reverseRecOn with
  | nil => exact iff_of_true (List.Perm.refl _) List.Pairwise.nil
  | append_singleton links last ih =>
    obtain ⟨front, -, apart⟩ := List.nodup_append.mp distinct
    have absent : last ∉ links := fun member => apart last member last List.mem_cons_self rfl
    rw [List.foldl_append, List.foldl_cons, List.foldl_nil, List.pairwise_append, addHref]
    split
    · next blocked =>
      obtain ⟨present, there, contains⟩ := blocked
      refine iff_of_false (fun same => absent ?_) fun ordered => ?_
      · exact mem_foldl_addHref (same.mem_iff.mpr (List.mem_append_right _ List.mem_cons_self))
      · exact ordered.2.2 present (mem_foldl_addHref there) last List.mem_cons_self contains
    · next free =>
      have moved : (last :: links.foldl addHref []).Perm (links ++ [last]) ↔
          (links.foldl addHref []).Perm links := by
        rw [(List.perm_append_singleton last links).congr_right, List.perm_cons]
      rw [moved]
      constructor
      · intro same
        refine ⟨(ih front).mp same, List.pairwise_singleton _ _, fun earlier before later member => ?_⟩
        obtain rfl := List.mem_singleton.mp member
        exact fun contains => free ⟨earlier, same.mem_iff.mpr before, contains⟩
      · exact fun ordered => (ih front).mpr ordered.1

namespace PageLinks
variable {page : PageLinks}

/-- No links but those of the list of active sessions. -/
def Alone (page : PageLinks) : Prop := page.elsewhere = [] ∧ page.oldSessionList = []

theorem Alone.finds_iff (alone : page.Alone) (text : List Char) :
    page.finds text = true ↔ ∃ present ∈ page.hrefs, text <:+: present := by
  simp [finds, anchors, hrefs, alone.1, alone.2]

theorem Alone.addLinkToList (alone : page.Alone) (session : SessionEntry) (href : List Char) :
    (page.addLinkToList session href .sessionList).Alone ∧
      (page.addLinkToList session href .sessionList).hrefs = addHref page.hrefs href := by
  have same := alone.finds_iff href
  unfold PageLinks.addLinkToList addHref
  split
  · next found => exact ⟨alone, (if_pos (same.mp found)).symm⟩
  · next missing => exact ⟨alone, (if_neg fun present => missing (same.mpr present)).symm⟩

theorem Alone.addSessionToList (alone : page.Alone) {sessions : List SessionEntry}
    (active : ∀ session ∈ sessions, session.active = true) :
    (page.addSessionToList sessions).Alone ∧ (page.addSessionToList sessions).hrefs =
      (sessions.map SessionEntry.liveHref).foldl addHref page.hrefs := by
  induction sessions generalizing page with
  | nil => exact ⟨alone, rfl⟩
  | cons session sessions ih =>
    obtain ⟨first, others⟩ := List.forall_mem_cons.mp active
    unfold PageLinks.addSessionToList
    rw [if_pos first]
    obtain ⟨alone, added⟩ := alone.addLinkToList { session with
      displayText := some (session.displayText.getD session.shownLength) } session.liveHref
    obtain ⟨alone, hrefs⟩ := ih alone others
    exact ⟨alone, by rw [hrefs, added, List.map_cons, List.foldl_cons]⟩

theorem Alone.refresh (alone : page.Alone) {reply : List SessionEntry}
    (active : ∀ session ∈ reply, session.active = true) : (page.refresh reply).Alone ∧
      (page.refresh reply).hrefs = (reply.map SessionEntry.liveHref).foldl addHref [] := by
  have emptied : Alone { page with sessionList := [] } := alone
  exact emptied.addSessionToList active

theorem Alone.refreshes (alone : page.Alone) {replies : List (List SessionEntry)}
    (active : ∀ reply ∈ replies, ∀ session ∈ reply, session.active = true) :
    (page.refreshes replies).Alone := by
  induction replies generalizing page with
  | nil => exact alone
  | cons reply replies ih =>
    obtain ⟨first, others⟩ := List.forall_mem_cons.mp active
    exact ih (alone.refresh first).1 others

/-- After any refreshes the list has one link for each session of the last reply exactly where no
session's link is contained in that of one that comes before it in the reply. -/
theorem one_link_each_iff (alone : page.Alone) (earlier : List (List SessionEntry))
    (active : ∀ reply ∈ earlier, ∀ session ∈ reply, session.active = true)
    {reply : List SessionEntry} (listed : ∀ session ∈ reply, session.active = true)
    (distinct : (reply.map SessionEntry.key).Nodup) :
    ((page.refreshes (earlier ++ [reply])).hrefs).Perm (reply.map SessionEntry.liveHref) ↔
      reply.Pairwise fun before after => ¬ after.liveHref <:+: before.liveHref := by
  have links : (reply.map SessionEntry.liveHref).Nodup := by
    have named := distinct.map (List.append_right_injective "#live&".toList)
    rwa [List.map_map] at named
  have last : page.refreshes (earlier ++ [reply]) = (page.refreshes earlier).refresh reply := by
    rw [PageLinks.refreshes, List.foldl_append]
    rfl
  rw [last, ((alone.refreshes active).refresh listed).2, foldl_addHref_perm links, List.pairwise_map]

def otherPorts : List SessionEntry :=
  [{ key := "10.0.0.1:222".toList }, { key := "10.0.0.1:301".toList }]

/-- The longer of two ports comes last. -/
def longerLast : List SessionEntry :=
  [{ key := "10.0.0.1:222".toList }, { key := "10.0.0.1:2222".toList }]

theorem one_link_each_longerLast : ((PageLinks.refreshes {} [otherPorts, longerLast]).hrefs).Perm
    ["#live&10.0.0.1:222".toList, "#live&10.0.0.1:2222".toList] := by
  have alone : Alone {} := ⟨rfl, rfl⟩
  have listed : ∀ session ∈ longerLast, session.active = true := by decide
  have links := one_link_each_iff alone [otherPorts] (by decide) listed (by decide)
  exact links.mpr (by decide)

/-- The port of the second session is the beginning of the first one's: it gets no link. -/
theorem extended_port_hides :
    ¬ ((PageLinks.refreshes {} [[{ key := "10.0.0.1:2222".toList },
        { key := "10.0.0.1:222".toList }]]).hrefs).Perm
      ["#live&10.0.0.1:2222".toList, "#live&10.0.0.1:222".toList] := by
  decide

end PageLinks
end SSHProxyPlus
