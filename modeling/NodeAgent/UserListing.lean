import NodeAgent.Topology

/-!
The users of a node, page by page. The panel continues a listing with a token for the next
page; a listing is handed on only when every page belongs to one snapshot and nothing is
missing or repeated, since users that are not in it are removed.
-/
namespace NodeAgent.UserListing
open NodeAgent.Topology

def USER_PAGE_SIZE : UInt32 := 500
def MAX_USER_PAGES : Nat := 10000
def MAX_USER_SNAPSHOT_ATTEMPTS : Nat := 3

/-- The status codes of a call. -/
inductive Code
  | cancelled
  | unknown
  | invalidArgument
  | deadlineExceeded
  | notFound
  | alreadyExists
  | permissionDenied
  | resourceExhausted
  | failedPrecondition
  | aborted
  | outOfRange
  | unimplemented
  | internal
  | unavailable
  | dataLoss
  | unauthenticated
deriving DecidableEq

structure FetchError where
  message : String
  code : Option Code
deriving DecidableEq

def FetchError.new (message : String) : FetchError := ⟨message,none⟩

structure ListUsersRequest where
  machineId : String
  sessionId : String
  nodeId : String
  pageSize : UInt32
  pageToken : String

structure ListUsersResponse where
  users : List Pb.UserCredential
  nextPageToken : String
  totalSize : UInt32
  hasNext : Bool

/-- The panel: what a call returns, by the number of the page that it is made for. -/
abbrev Panel := Nat → ListUsersRequest → Except FetchError ListUsersResponse

/-- The session that signs the calls. -/
structure Session where
  machineId : String
  sessionId : String

/-- What has been received so far. -/
structure Listing where
  users : List UserCredential
  pageToken : String
  seenPageTokens : List String
  seenUserIds : List String
  expectedTotal : Option UInt32

def Listing.start : Listing := ⟨[],"",[],[],none⟩

/-- A page ends the listing or leads to the next one. -/
inductive PageOutcome
  | complete (users : List UserCredential)
  | next (listing : Listing)

variable (quote : String → String) (nodeId : String)

/-- The users of a page, none of which may be without an identity or known already. -/
def receiveUsers (listing : Listing) : List Pb.UserCredential → Except FetchError Listing
  | [] => .ok listing
  | user :: rest =>
    if user.userId.isEmpty then .error (.new s!"list users returned empty user identity for node {nodeId}")
    else if user.userId ∈ listing.seenUserIds then .error (.new s!"list users returned duplicate identity for node {nodeId}")
    else receiveUsers { listing with
      seenUserIds := user.userId :: listing.seenUserIds
      users := listing.users ++ [UserCredential.ofPb user] } rest

/-- What a page tells about the rest of the listing. -/
def advance (listing : Listing) (response : ListUsersResponse) : Except FetchError PageOutcome :=
  let total := response.totalSize.toNat
  let count := listing.users.length
  let token := quote response.nextPageToken
  if listing.expectedTotal ≠ some response.totalSize then .error (.new s!"list users snapshot total changed for node {nodeId}")
  else if total > 0 ∧ count > total then
    .error (.new s!"list users returned {count} users beyond total_size={total} for node {nodeId}")
  else if !response.hasNext then
    if !response.nextPageToken.isEmpty then
      .error (.new s!"list users returned has_next=false with next_page_token={token} for node {nodeId}")
    else if total > 0 ∧ count ≠ total then .error (.new s!"list users snapshot incomplete for node {nodeId}")
    else .ok (.complete listing.users)
  else if response.nextPageToken.isEmpty then
    .error (.new s!"list users returned has_next=true without next_page_token for node {nodeId}")
  else if response.users.isEmpty then
    .error (.new s!"list users returned empty page with next_page_token={token} for node {nodeId}")
  else if total > 0 ∧ count ≥ total then
    .error (.new s!"list users reached total_size={total} but still got next_page_token={token} for node {nodeId}")
  else if response.nextPageToken = listing.pageToken then
    .error (.new s!"list users pagination did not advance page_token={quote listing.pageToken} for node {nodeId}")
  else .ok (.next { listing with pageToken := response.nextPageToken })

def receivePage (page : Nat) (listing : Listing) (response : ListUsersResponse) : Except FetchError PageOutcome := do
  let listing ← receiveUsers nodeId listing response.users
  advance quote nodeId { listing with expectedTotal := if page = 0 then some response.totalSize else listing.expectedTotal } response

variable (session : Session) (panel : Panel)

def pageRequest (token : String) : ListUsersRequest := ⟨session.machineId,session.sessionId,nodeId,USER_PAGE_SIZE,token⟩

/-- The token of the page that is fetched next counts as seen. -/
def Listing.opened (listing : Listing) : Listing :=
  if listing.pageToken.isEmpty then listing else { listing with seenPageTokens := listing.pageToken :: listing.seenPageTokens }

@[simp] theorem Listing.opened_users (listing : Listing) : listing.opened.users = listing.users := by
  rw [Listing.opened]
  split <;> rfl

@[simp] theorem Listing.opened_pageToken (listing : Listing) : listing.opened.pageToken = listing.pageToken := by
  rw [Listing.opened]
  split <;> rfl

@[simp] theorem Listing.opened_seenUserIds (listing : Listing) : listing.opened.seenUserIds = listing.seenUserIds := by
  rw [Listing.opened]
  split <;> rfl

@[simp] theorem Listing.opened_expectedTotal (listing : Listing) : listing.opened.expectedTotal = listing.expectedTotal := by
  rw [Listing.opened]
  split <;> rfl

theorem Listing.mem_opened {listing : Listing} {token : String} (seen : token ∈ listing.opened.seenPageTokens) :
    token = listing.pageToken ∨ token ∈ listing.seenPageTokens := by
  rw [Listing.opened] at seen
  split at seen
  · exact .inr seen
  · exact List.mem_cons.mp seen

/-- The loop over the pages, with the number of pages that may still come. -/
def listPages (page : Nat) (listing : Listing) : Nat → Except FetchError (List UserCredential)
  | 0 => .error (.new s!"list users exceeded max pages={MAX_USER_PAGES} for node {nodeId}")
  | room + 1 =>
    if !listing.pageToken.isEmpty ∧ listing.pageToken ∈ listing.seenPageTokens then
      .error (.new s!"list users pagination repeated page_token={quote listing.pageToken} for node {nodeId}")
    else
      match panel page (pageRequest nodeId session listing.pageToken) with
      | .error error => .error error
      | .ok response =>
        match receivePage quote nodeId page listing.opened response with
        | .error error => .error error
        | .ok (.complete users) => .ok users
        | .ok (.next listing) => listPages (page + 1) listing room

def listNodeUsersSnapshot : Except FetchError (List UserCredential) := listPages quote nodeId session panel 0 .start MAX_USER_PAGES

/-- Membership that changes while a listing is read aborts it; it is then read again. -/
def listNodeUsers (panels : Nat → Panel) : Except FetchError (List UserCredential) :=
  if nodeId.isEmpty then .error (.new "list users requires node_id")
  else attempts 0 (MAX_USER_SNAPSHOT_ATTEMPTS - 1)
where
  attempts (attempt : Nat) : Nat → Except FetchError (List UserCredential)
    | 0 => listNodeUsersSnapshot quote nodeId session (panels attempt)
    | left + 1 =>
      match listNodeUsersSnapshot quote nodeId session (panels attempt) with
      | .ok users => .ok users
      | .error error => if error.code = some .aborted then attempts (attempt + 1) left else .error error

/-! ### Listings that are handed on -/

section Results
variable {quote : String → String} {nodeId : String} {session : Session} {panel : Panel}

variable (nodeId session panel) in
/-- The pages that a listing receives, from a page and its token to the last one. -/
inductive Received : Nat → String → List ListUsersResponse → Prop
  | last {page : Nat} {token : String} {response : ListUsersResponse} (answer : panel page (pageRequest nodeId session token) = .ok response)
      (ends : response.hasNext = false) : Received page token [response]
  | more {page : Nat} {token : String} {response : ListUsersResponse} {rest : List ListUsersResponse}
      (answer : panel page (pageRequest nodeId session token) = .ok response) (continues : response.hasNext = true)
      (others : Received (page + 1) response.nextPageToken rest) : Received page token (response :: rest)

/-- Every identity is known, and known once. -/
structure Distinct (users : List UserCredential) : Prop where
  named : ∀ user ∈ users, user.userId ≠ ""
  nodup : (users.map UserCredential.userId).Nodup

/-- The identities seen are those of the users received. -/
structure Listing.Sound (listing : Listing) : Prop where
  distinct : Distinct listing.users
  seen : ∀ id, id ∈ listing.seenUserIds ↔ id ∈ listing.users.map UserCredential.userId

/-- The listing with more users. -/
def Listing.extended (listing : Listing) (users : List Pb.UserCredential) : Listing :=
  { listing with
    seenUserIds := (users.map Pb.UserCredential.userId).reverse ++ listing.seenUserIds
    users := listing.users ++ users.map UserCredential.ofPb }

theorem receiveUsers_ok {listing listing' : Listing} {users : List Pb.UserCredential} (done : receiveUsers nodeId listing users = .ok listing')
    (sound : listing.Sound) : listing' = listing.extended users ∧ listing'.Sound := by
  induction users generalizing listing with
  | nil =>
    cases done
    simp [Listing.extended,sound]
  | cons user rest ih =>
    rw [receiveUsers] at done
    split at done
    · cases done
    · next named =>
      split at done
      · cases done
      · next fresh =>
        have sound' : Listing.Sound { listing with
            seenUserIds := user.userId :: listing.seenUserIds
            users := listing.users ++ [UserCredential.ofPb user] } := by
          rw [sound.seen] at fresh
          refine ⟨⟨?_,?_⟩,?_⟩
          · intro other member
            rcases List.mem_append.mp member with earlier | last
            · exact sound.distinct.named other earlier
            · rw [List.mem_singleton.mp last]
              simpa [UserCredential.ofPb] using named
          · rw [List.map_append,List.nodup_append]
            refine ⟨sound.distinct.nodup,List.nodup_singleton _,?_⟩
            intro id earlier id' last same
            rw [List.map_singleton,List.mem_singleton] at last
            rw [same,last] at earlier
            exact fresh earlier
          · intro id
            simp [sound.seen,UserCredential.ofPb,or_comm]
        obtain ⟨rfl,sound''⟩ := ih done sound'
        refine ⟨?_,sound''⟩
        simp [Listing.extended]

theorem receiveUsers_complete {listing : Listing} {users : List Pb.UserCredential} (named : ∀ user ∈ users, user.userId ≠ "")
    (nodup : (users.map Pb.UserCredential.userId).Nodup) (fresh : ∀ user ∈ users, user.userId ∉ listing.seenUserIds) :
    receiveUsers nodeId listing users = .ok (listing.extended users) := by
  induction users generalizing listing with
  | nil => simp [receiveUsers,Listing.extended]
  | cons user rest ih =>
    rw [List.map_cons,List.nodup_cons] at nodup
    rw [receiveUsers,if_neg (by simpa using named user List.mem_cons_self),if_neg (fresh user List.mem_cons_self)]
    rw [ih (fun other later => named other (List.mem_cons_of_mem _ later)) nodup.2 ?_]
    · simp [Listing.extended]
    · intro other later
      rw [List.mem_cons]
      rintro (same | earlier)
      · exact nodup.1 (same ▸ List.mem_map_of_mem later)
      · exact fresh other (List.mem_cons_of_mem _ later) earlier

/-- The last page closes a listing that has as many users as it was told. -/
theorem advance_complete {listing : Listing} {response : ListUsersResponse} {users : List UserCredential}
    (done : advance quote nodeId listing response = .ok (.complete users)) : users = listing.users ∧ response.hasNext = false ∧
      listing.expectedTotal = some response.totalSize ∧ (response.totalSize ≠ 0 → listing.users.length = response.totalSize.toNat) := by
  unfold advance at done
  dsimp only at done
  split at done
  · cases done
  · next total =>
    split at done
    · cases done
    · split at done
      · next ends =>
        split at done
        · cases done
        · split at done
          · cases done
          · next exact_count =>
            cases done
            refine ⟨rfl,by simpa using ends,Decidable.not_not.mp total,?_⟩
            intro positive
            have more : response.totalSize.toNat > 0 := by
              rw [gt_iff_lt,Nat.pos_iff_ne_zero]
              intro zero
              exact positive (UInt32.toNat_inj.mp zero)
            exact Decidable.not_not.mp (fun different => exact_count ⟨more,different⟩)
      · iterate 4
          split at done
          · cases done
        cases done

theorem advance_next {listing listing' : Listing} {response : ListUsersResponse}
    (done : advance quote nodeId listing response = .ok (.next listing')) : listing' = { listing with pageToken := response.nextPageToken } ∧
      response.hasNext = true ∧ listing.expectedTotal = some response.totalSize := by
  unfold advance at done
  dsimp only at done
  split at done
  · cases done
  · next total =>
    split at done
    · cases done
    · split at done
      · iterate 2
          split at done
          · cases done
        cases done
      · next continues =>
        iterate 4
          split at done
          · cases done
        cases done
        exact ⟨rfl,by simpa using continues,Decidable.not_not.mp total⟩

variable (nodeId session panel) in
/-- What has been received when a listing is complete. -/
structure Complete (listing : Listing) (page room : Nat) (responses : List ListUsersResponse) (users : List UserCredential) : Prop where
  received : Received nodeId session panel page listing.pageToken responses
  few : responses.length ≤ room
  all : users = listing.users ++ (responses.flatMap ListUsersResponse.users).map UserCredential.ofPb
  distinct : Distinct users
  total : ∃ total, (page ≠ 0 → listing.expectedTotal = some total) ∧ (∀ response ∈ responses, response.totalSize = total) ∧
    (total ≠ 0 → users.length = total.toNat)

/-- The total that a page is checked against. -/
theorem expected_total {page : Nat} {listing : Listing} {response : ListUsersResponse}
    (expected : (if page = 0 then some response.totalSize else listing.expectedTotal) = some response.totalSize) :
    page ≠ 0 → listing.expectedTotal = some response.totalSize := by
  intro later
  rw [if_neg later] at expected
  exact expected

theorem receivePage_ok {page : Nat} {listing filled : Listing} {response : ListUsersResponse}
    (received : receiveUsers nodeId listing response.users = .ok filled) : receivePage quote nodeId page listing response =
      advance quote nodeId { filled with expectedTotal := if page = 0 then some response.totalSize else filled.expectedTotal } response := by
  rw [receivePage,received]
  rfl

/-- The induction is on the pages that may still come. -/
theorem listPages_complete {page room : Nat} {listing : Listing} {users : List UserCredential} (sound : listing.Sound)
    (done : listPages quote nodeId session panel page listing room = .ok users) :
    ∃ responses, Complete nodeId session panel listing page room responses users := by
  induction room generalizing page listing with
  | zero => cases done
  | succ room ih =>
    rw [listPages] at done
    split at done
    · cases done
    · have sound_opened : listing.opened.Sound := ⟨by simpa using sound.distinct,by simpa using sound.seen⟩
      split at done
      · cases done
      · next response answer =>
        cases received : receiveUsers nodeId listing.opened response.users with
        | error error =>
          rw [receivePage,received] at done
          cases done
        | ok filled =>
          obtain ⟨rfl,sound_filled⟩ := receiveUsers_ok received sound_opened
          rw [receivePage_ok received] at done
          split at done
          · cases done
          · next finished complete =>
            cases done
            obtain ⟨rfl,ends,expected,counted⟩ := advance_complete complete
            have told : page ≠ 0 → listing.expectedTotal = some response.totalSize := by
              exact listing.opened_expectedTotal ▸ expected_total expected
            refine ⟨[response],.last answer ends,by simp,?_,?_,?_⟩
            · simp [Listing.extended]
            · exact sound_filled.distinct
            · exact ⟨response.totalSize,told,by simp,counted⟩
          · next following next =>
            obtain ⟨rfl,continues,expected⟩ := advance_next next
            have told : page ≠ 0 → listing.expectedTotal = some response.totalSize := by
              exact listing.opened_expectedTotal ▸ expected_total expected
            obtain ⟨responses,complete⟩ := ih (by exact ⟨sound_filled.distinct,sound_filled.seen⟩) done
            obtain ⟨total,after,each,counted⟩ := complete.total
            have total_eq : response.totalSize = total := Option.some.inj (expected.symm.trans (after (Nat.succ_ne_zero page)))
            refine ⟨response :: responses,.more answer continues complete.received,?_,?_,complete.distinct,total,?_,?_,counted⟩
            · have few := complete.few
              rw [List.length_cons]
              omega
            · rw [complete.all]
              simp [Listing.extended]
            · rw [← total_eq]
              exact told
            · intro other member
              rcases List.mem_cons.mp member with rfl | later
              · exact total_eq
              · exact each other later

/-! ### Panels that serve a list -/

variable (nodeId session panel) in
/-- The panel answers with the pages of a list, each under its token. -/
def Serves (total : UInt32) : Nat → List (String × List Pb.UserCredential) → Prop
  | _, [] => True
  | page, (token,users) :: rest =>
    panel page (pageRequest nodeId session token) = .ok ⟨users,(rest.head?.map Prod.fst).getD "",total,!rest.isEmpty⟩ ∧
      Serves total (page + 1) rest

def served (pages : List (String × List Pb.UserCredential)) : List Pb.UserCredential := pages.flatMap Prod.snd

/-- A listing in front of the pages that are left of a list. -/
structure Awaits (listing : Listing) (page : Nat) (total : UInt32) (token : String) (rest : List (String × List Pb.UserCredential)) : Prop where
  at_token : listing.pageToken = token
  unseen : (listing.pageToken = "" ∨ listing.pageToken ∉ listing.seenPageTokens) ∧ ∀ later ∈ rest, later.1 ≠ listing.pageToken ∧ later.1 ∉ listing.seenPageTokens
  expected : page ≠ 0 → listing.expectedTotal = some total

theorem advance_last {listing : Listing} {response : ListUsersResponse} (expected : listing.expectedTotal = some response.totalSize)
    (ends : response.hasNext = false) (token : response.nextPageToken = "")
    (counted : response.totalSize = 0 ∨ response.totalSize.toNat = listing.users.length) :
    advance quote nodeId listing response = .ok (.complete listing.users) := by
  have exact_count : response.totalSize.toNat > 0 → listing.users.length = response.totalSize.toNat := by
    intro positive
    rcases counted with zero | same
    · rw [zero] at positive
      exact absurd positive (by decide)
    · exact same.symm
  unfold advance
  dsimp only
  rw [if_neg (not_not.mpr expected),if_neg (fun beyond => absurd (exact_count beyond.1) (Nat.ne_of_gt beyond.2)),if_pos (by simp [ends]),
    if_neg (by simp [token]),if_neg (fun short => short.2 (exact_count short.1))]

theorem advance_more {listing : Listing} {response : ListUsersResponse} (expected : listing.expectedTotal = some response.totalSize)
    (continues : response.hasNext = true) (token : response.nextPageToken ≠ "") (moved : response.nextPageToken ≠ listing.pageToken)
    (full : response.users ≠ []) (counted : response.totalSize = 0 ∨ listing.users.length < response.totalSize.toNat) :
    advance quote nodeId listing response = .ok (.next { listing with pageToken := response.nextPageToken }) := by
  have below : response.totalSize.toNat > 0 → listing.users.length < response.totalSize.toNat := by
    intro positive
    rcases counted with zero | less
    · rw [zero] at positive
      exact absurd positive (by decide)
    · exact less
  unfold advance
  dsimp only
  rw [if_neg (not_not.mpr expected),if_neg (fun beyond => absurd (below beyond.1) (Nat.not_lt.mpr (Nat.le_of_lt beyond.2))),
    if_neg (by simp [continues]),if_neg (by simpa using token),if_neg (by simpa using full),
    if_neg (fun reached => absurd (below reached.1) (Nat.not_lt.mpr reached.2)),if_neg moved]

/-- A page that comes under an unseen token and with fresh identities is received whole. -/
theorem listPages_receives {page room : Nat} {listing : Listing} {response : ListUsersResponse}
    (unseen : listing.pageToken = "" ∨ listing.pageToken ∉ listing.seenPageTokens)
    (answer : panel page (pageRequest nodeId session listing.pageToken) = .ok response) (named : ∀ user ∈ response.users, user.userId ≠ "")
    (nodup : (response.users.map Pb.UserCredential.userId).Nodup) (fresh : ∀ user ∈ response.users, user.userId ∉ listing.seenUserIds)
    {expected : Option UInt32} (expected_def : expected = if page = 0 then some response.totalSize else listing.expectedTotal) :
    listPages quote nodeId session panel page listing (room + 1) =
      match advance quote nodeId { listing.opened.extended response.users with expectedTotal := expected } response with
      | .error error => .error error
      | .ok (.complete users) => .ok users
      | .ok (.next listing) => listPages quote nodeId session panel (page + 1) listing room := by
  have unrepeated : ¬ (!listing.pageToken.isEmpty ∧ listing.pageToken ∈ listing.seenPageTokens) := by
    rintro ⟨present,seen⟩
    rcases unseen with empty | unseen
    · simp [empty] at present
    · exact unseen seen
  have received : receiveUsers nodeId listing.opened response.users = .ok (listing.opened.extended response.users) :=
    receiveUsers_complete named nodup (by simpa using fresh)
  rw [listPages,if_neg unrepeated,answer]
  dsimp only
  rw [receivePage_ok received,expected_def]
  simp only [Listing.extended,Listing.opened_expectedTotal]

/-- The induction is on the pages that are left: every check passes on a page of the list. -/
theorem listPages_served {total : UInt32} {rest : List (String × List Pb.UserCredential)} {page room : Nat} {listing : Listing} {token : String}
    {users : List Pb.UserCredential} (serves : Serves nodeId session panel total page ((token,users) :: rest))
    (awaits : Awaits listing page total token rest) (tokens : (rest.map Prod.fst).Nodup) (named_tokens : ∀ later ∈ rest, later.1 ≠ "")
    (full : ∀ later ∈ rest, later.2 ≠ []) (first : rest ≠ [] → users ≠ []) (named : ∀ user ∈ users ++ served rest, user.userId ≠ "")
    (nodup : ((users ++ served rest).map Pb.UserCredential.userId).Nodup) (fresh : ∀ user ∈ users ++ served rest, user.userId ∉ listing.seenUserIds)
    (counted : total = 0 ∨ total.toNat = listing.users.length + (users ++ served rest).length) (few : rest.length < room) :
    listPages quote nodeId session panel page listing room = .ok (listing.users ++ (users ++ served rest).map UserCredential.ofPb) := by
  induction rest generalizing page room listing token users with
  | nil =>
    obtain ⟨room,rfl⟩ : ∃ left, room = left + 1 := ⟨room - 1,by omega⟩
    rw [served,List.flatMap_nil,List.append_nil] at named nodup fresh counted ⊢
    obtain ⟨rfl,unseen,expected⟩ := awaits
    have expected_def : some total = if page = 0 then some total else listing.expectedTotal := by
      split
      · rfl
      · next later => exact (expected later).symm
    rw [listPages_receives unseen.1 serves.1 named nodup fresh expected_def,advance_last]
    · simp [Listing.extended]
    · rfl
    · rfl
    · rfl
    · simpa [Listing.extended] using counted
  | cons following rest ih =>
    obtain ⟨room,rfl⟩ : ∃ left, room = left + 1 := ⟨room - 1,by omega⟩
    obtain ⟨later_token,later_users⟩ := following
    obtain ⟨rfl,⟨unseen,later_unseen⟩,expected⟩ := awaits
    have expected_def : some total = if page = 0 then some total else listing.expectedTotal := by
      split
      · rfl
      · next later => exact (expected later).symm
    have split_served : served ((later_token,later_users) :: rest) = later_users ++ served rest := by
      rw [served,List.flatMap_cons]
      rfl
    rw [split_served] at named nodup fresh counted ⊢
    rw [List.map_append,List.nodup_append] at nodup
    have later_full : later_users ≠ [] := full _ List.mem_cons_self
    rw [List.map_cons,List.nodup_cons] at tokens
    rw [listPages_receives unseen serves.1 (fun user member => named user (List.mem_append_left _ member)) nodup.1
      (fun user member => fresh user (List.mem_append_left _ member)) expected_def,advance_more]
    · have unseen_after : ∀ later ∈ (later_token,later_users) :: rest, later.1 ∉ listing.opened.seenPageTokens := by
        intro later member seen
        rcases Listing.mem_opened seen with same | earlier
        · exact (later_unseen later member).1 same
        · exact (later_unseen later member).2 earlier
      dsimp only
      rw [ih serves.2 ⟨rfl,⟨.inr (unseen_after _ List.mem_cons_self),?_⟩,fun _ => rfl⟩ tokens.2
        (fun later member => named_tokens later (List.mem_cons_of_mem _ member)) (fun later member => full later (List.mem_cons_of_mem _ member))
        (fun _ => later_full) (fun user member => named user (List.mem_append_right _ member)) nodup.2.1 ?_ ?_ (by simpa using few)]
      · simp [Listing.extended]
      · intro later member
        refine ⟨?_,unseen_after later (List.mem_cons_of_mem _ member)⟩
        intro same
        exact tokens.1 (List.mem_map.mpr ⟨later,member,same⟩)
      · intro user member seen
        simp only [Listing.extended,Listing.opened_seenUserIds,List.mem_append,List.mem_reverse] at seen
        rcases seen with here | earlier
        · exact nodup.2.2 user.userId here user.userId (List.mem_map_of_mem member) rfl
        · exact fresh user (List.mem_append_right _ member) earlier
      · rcases counted with zero | counted
        · exact .inl zero
        · right
          simp [Listing.extended] at counted ⊢
          omega
    · rfl
    · rfl
    · exact named_tokens _ List.mem_cons_self
    · simpa [Listing.extended] using (later_unseen _ List.mem_cons_self).1
    · exact first (List.cons_ne_nil _ _)
    · rcases counted with zero | counted
      · exact .inl zero
      · right
        have some_later := List.length_pos_iff.mpr later_full
        simp [Listing.extended] at counted ⊢
        omega

variable (nodeId session panel) in
/-- The pages of a fixed list, as the panel serves them: no page is empty, unless the list is. -/
structure ServesList (total : UInt32) (first : List Pb.UserCredential) (rest : List (String × List Pb.UserCredential)) : Prop where
  answers : Serves nodeId session panel total 0 (("",first) :: rest)
  tokens : (rest.map Prod.fst).Nodup ∧ ∀ later ∈ rest, later.1 ≠ ""
  full : (rest ≠ [] → first ≠ []) ∧ ∀ later ∈ rest, later.2 ≠ []
  few : rest.length < MAX_USER_PAGES
  distinct : (∀ user ∈ first ++ served rest, user.userId ≠ "") ∧ ((first ++ served rest).map Pb.UserCredential.userId).Nodup
  total : total = 0 ∨ total.toNat = (first ++ served rest).length

variable (nodeId session panel) in
/-- A listing that belongs to one snapshot of the panel, with nothing missing or repeated. -/
structure Whole (users : List UserCredential) (responses : List ListUsersResponse) : Prop where
  received : Received nodeId session panel 0 "" responses
  few : responses.length ≤ MAX_USER_PAGES
  all : users = (responses.flatMap ListUsersResponse.users).map UserCredential.ofPb
  distinct : Distinct users
  total : ∃ total, (∀ response ∈ responses, response.totalSize = total) ∧ (total ≠ 0 → users.length = total.toNat)

variable (quote nodeId session) in
/-- What is listed is whole, and a list that is served in pages is listed. -/
theorem listNodeUsersSnapshot_exact (panel : Panel) :
    (∀ users, listNodeUsersSnapshot quote nodeId session panel = .ok users → ∃ responses, Whole nodeId session panel users responses) ∧
      ∀ total first rest, ServesList nodeId session panel total first rest →
        listNodeUsersSnapshot quote nodeId session panel = .ok ((first ++ served rest).map UserCredential.ofPb) := by
  constructor
  · intro users done
    have sound : Listing.start.Sound := ⟨⟨by simp [Listing.start],by simp [Listing.start]⟩,by simp [Listing.start]⟩
    obtain ⟨responses,complete⟩ := listPages_complete sound done
    obtain ⟨total,_,each,counted⟩ := complete.total
    refine ⟨responses,complete.received,complete.few,?_,complete.distinct,total,each,counted⟩
    simpa [Listing.start] using complete.all
  · intro total first rest serves
    have awaits : Awaits .start 0 total "" rest :=
      ⟨rfl,⟨.inl rfl,fun later member => ⟨serves.tokens.2 later member,List.not_mem_nil⟩⟩,fun later => absurd rfl later⟩
    rw [listNodeUsersSnapshot,listPages_served serves.answers awaits serves.tokens.1 serves.tokens.2 serves.full.2 serves.full.1 serves.distinct.1
      serves.distinct.2 (fun _ _ => List.not_mem_nil) (by simpa [Listing.start] using serves.total) serves.few]
    rfl

/-- A panel with two pages of one user each. -/
theorem listNodeUsersSnapshot_exact_two :
    listNodeUsersSnapshot id "n" ⟨"m","s"⟩
      (fun page request => if page = 0 then .ok ⟨[⟨"a","","",0,0,0⟩],"t",2,true⟩
        else if request.pageToken = "t" then .ok ⟨[⟨"b","","",0,0,0⟩],"",2,false⟩ else .error (.new "no such page")) =
      .ok ([⟨"a","","",0,0,0⟩,⟨"b","","",0,0,0⟩].map UserCredential.ofPb) :=
  (listNodeUsersSnapshot_exact id "n" ⟨"m","s"⟩ _).2 2 [⟨"a","","",0,0,0⟩] [("t",[⟨"b","","",0,0,0⟩])]
    { answers := ⟨rfl,rfl,trivial⟩
      tokens := by simp
      full := by simp
      few := by decide
      distinct := by simp [served]
      total := .inr rfl }

theorem attempts_ok {panels : Nat → Panel} {attempt left : Nat} {users : List UserCredential}
    (done : listNodeUsers.attempts quote nodeId session panels attempt left = .ok users) :
    ∃ made ≤ attempt + left, listNodeUsersSnapshot quote nodeId session (panels made) = .ok users := by
  induction left generalizing attempt with
  | zero => exact ⟨attempt,by omega,done⟩
  | succ left ih =>
    rw [listNodeUsers.attempts] at done
    split at done
    · next users' listed =>
      cases done
      exact ⟨attempt,by omega,listed⟩
    · split at done
      · obtain ⟨made,bound,listed⟩ := ih done
        exact ⟨made,by omega,listed⟩
      · cases done

/-- The users that are listed come from one of the attempts. -/
theorem listNodeUsers_ok {panels : Nat → Panel} {users : List UserCredential}
    (done : listNodeUsers quote nodeId session panels = .ok users) : nodeId ≠ "" ∧
      ∃ attempt < MAX_USER_SNAPSHOT_ATTEMPTS, listNodeUsersSnapshot quote nodeId session (panels attempt) = .ok users := by
  rw [listNodeUsers] at done
  split at done
  · cases done
  · next named =>
    obtain ⟨made,bound,listed⟩ := attempts_ok done
    exact ⟨by simpa using named,made,by rw [MAX_USER_SNAPSHOT_ATTEMPTS] at bound ⊢; omega,listed⟩

end Results

end NodeAgent.UserListing
