import Mathlib.Data.List.Induction
import MeetingRag.Collaboration.Service

/-!
# Who is in a room

In every state, a room has its owner as its host, every other member was admitted by an invitation of that
host while the two were friends, and there is one friendship for each pair of users. Answers and departures
are for good.

The four tables change in six ways only. That an admission never restores a membership follows from the
invariant: everybody but the host holds an accepted invitation from the moment of the first admission, and
with that a departed member is refused.
-/

open Outcome Py Table

namespace MeetingRag

/-- The two are friends. -/
def AreFriends (s : CollaborationState) (a b : UUID) : Prop :=
  ∃ f ∈ s.friendships, f.IsPair a b ∧ f.status = .accepted

/-- What holds in every state. -/
structure CollaborationInvariant (s : CollaborationState) : Prop where
  friendshipIds : (s.friendships.map (·.id)).Nodup
  pairs : s.friendships.Pairwise fun f g ↦ ¬f.IsPair g.requesterId g.addresseeId
  roomIds : (s.rooms.map (·.id)).Nodup
  memberKeys : (s.roomMemberships.map fun m ↦ (m.roomId, m.userId)).Nodup
  hosts : ∀ r ∈ s.rooms, ∃ m ∈ s.roomMemberships, m.roomId = r.id ∧ m.role = .host
  hostOf : ∀ m ∈ s.roomMemberships, m.role = .host → m.leftAt = none ∧
    ∃ r ∈ s.rooms, r.id = m.roomId ∧ r.ownerId = m.userId
  roomOf : ∀ m ∈ s.roomMemberships, ∃ r ∈ s.rooms, r.id = m.roomId
  invited : ∀ m ∈ s.roomMemberships, m.role = .member → ∃ i ∈ s.roomInvitations,
    i.roomId = m.roomId ∧ i.inviteeId = m.userId
  invitations : (s.roomInvitations.map fun i ↦ (i.roomId, i.inviteeId)).Nodup
  accepted : ∀ i ∈ s.roomInvitations, i.status = .accepted ∧
    ∃ r ∈ s.rooms, r.id = i.roomId ∧ r.ownerId = i.inviterId

/-- What an operation does to the four tables. -/
inductive CollaborationChange (s s' : CollaborationState) : Prop
  | quiet (friendships : s'.friendships = s.friendships) (rooms : s'.rooms = s.rooms)
      (roomMemberships : s'.roomMemberships = s.roomMemberships)
      (roomInvitations : s'.roomInvitations = s.roomInvitations)
  | requested (row : Friendship) (fresh : ∀ f ∈ s.friendships, ¬Collaboration.friendshipClash f row)
      (friendships : s'.friendships = s.friendships ++ [row]) (rooms : s'.rooms = s.rooms)
      (roomMemberships : s'.roomMemberships = s.roomMemberships)
      (roomInvitations : s'.roomInvitations = s.roomInvitations)
  | answered (id : UUID) (status : RequestStatus) (stamp : Timestamp)
      (friendships : s'.friendships = updateWhere (fun f ↦ f.id = id ∧ f.status = .pending)
        (fun f ↦ { f with status := status, respondedAt := some stamp }) s.friendships)
      (rooms : s'.rooms = s.rooms) (roomMemberships : s'.roomMemberships = s.roomMemberships)
      (roomInvitations : s'.roomInvitations = s.roomInvitations)
  | made (room : Room) (host : Membership) (fresh : ∀ r ∈ s.rooms, r.id ≠ room.id)
      (freshHost : ∀ m ∈ s.roomMemberships, ¬Collaboration.membershipClash m host)
      (hostOf : host.roomId = room.id ∧ host.userId = room.ownerId ∧ host.role = .host ∧
        host.leftAt = none)
      (friendships : s'.friendships = s.friendships) (rooms : s'.rooms = s.rooms ++ [room])
      (roomMemberships : s'.roomMemberships = s.roomMemberships ++ [host])
      (roomInvitations : s'.roomInvitations = s.roomInvitations)
  | admitted (invitation : Invitation) (member : Membership)
      (fresh : ∀ i ∈ s.roomInvitations, ¬Collaboration.invitationClash i invitation)
      (freshMember : ∀ m ∈ s.roomMemberships, ¬Collaboration.membershipClash m member)
      (room : ∃ r ∈ s.rooms, r.id = invitation.roomId ∧ r.ownerId = invitation.inviterId)
      (friends : AreFriends s invitation.inviterId invitation.inviteeId)
      (memberOf : member.roomId = invitation.roomId ∧ member.userId = invitation.inviteeId ∧
        member.role = .member ∧ invitation.status = .accepted)
      (friendships : s'.friendships = s.friendships) (rooms : s'.rooms = s.rooms)
      (roomMemberships : s'.roomMemberships = s.roomMemberships ++ [member])
      (roomInvitations : s'.roomInvitations = s.roomInvitations ++ [invitation])
  | left (roomId userId : UUID) (stamp : Timestamp)
      (member : ∃ m ∈ s.roomMemberships, m.roomId = roomId ∧ m.userId = userId ∧ m.role = .member)
      (friendships : s'.friendships = s.friendships) (rooms : s'.rooms = s.rooms)
      (roomMemberships : s'.roomMemberships =
        updateWhere (fun m ↦ m.roomId = roomId ∧ m.userId = userId ∧ m.leftAt = none)
          (fun m ↦ { m with leftAt := some stamp }) s.roomMemberships)
      (roomInvitations : s'.roomInvitations = s.roomInvitations)

section Change

variable {s s' : CollaborationState}

theorem recordEvent_eq_ok {event : EventIdentity} {actorId : UUID} {roomId : Option UUID}
    {effects : List NotificationEffect}
    (h : Collaboration.recordEvent s event actorId roomId effects = .ok s') :
    ∃ activity, s' = { s with activity := activity } := by
  rw [Collaboration.recordEvent] at h
  split at h
  · next activity _ =>
    cases h
    exact ⟨activity, rfl⟩
  · exact nomatch h

theorem createFriendRequest_change {actorId addresseeId friendshipId : UUID} {view : FriendshipView}
    (h : Collaboration.createFriendRequest s actorId addresseeId friendshipId = .ok (view, s')) :
    CollaborationChange s s' := by
  obtain ⟨-, h⟩ := require_bind_eq_ok.mp h
  obtain ⟨-, h⟩ := require_bind_eq_ok.mp h
  dsimp only at h
  split at h
  · split at h
    · cases h
    · obtain ⟨-, h⟩ := require_bind_eq_ok.mp h
      obtain ⟨_, -, h⟩ := bind_eq_ok.mp h
      cases h
      exact .quiet rfl rfl rfl rfl
  · next hfresh =>
    obtain ⟨-, h⟩ := require_bind_eq_ok.mp h
    obtain ⟨s₂, hs₂, h⟩ := bind_eq_ok.mp h
    obtain ⟨s₃, hs₃, h⟩ := bind_eq_ok.mp h
    obtain ⟨_, -, h⟩ := bind_eq_ok.mp h
    cases h
    obtain ⟨_, rfl⟩ := recordEvent_eq_ok hs₂
    obtain ⟨_, rfl⟩ := recordEvent_eq_ok hs₃
    exact .requested _ (fun f hf hclash ↦ hfresh ⟨f, hf, hclash⟩) rfl rfl rfl rfl

theorem respondToFriendRequest_change {actorId friendshipId : UUID} {accept : Bool} {view : FriendshipView}
    (h : Collaboration.respondToFriendRequest s actorId friendshipId accept = .ok (view, s')) :
    CollaborationChange s s' := by
  rw [Collaboration.respondToFriendRequest] at h
  dsimp only at h
  split at h
  · exact nomatch h
  · split at h
    · obtain ⟨-, h⟩ := require_bind_eq_ok.mp h
      obtain ⟨s₁, hs₁, h⟩ := bind_eq_ok.mp h
      obtain ⟨s₂, hs₂, h⟩ := bind_eq_ok.mp h
      obtain ⟨_, -, h⟩ := bind_eq_ok.mp h
      cases h
      obtain ⟨_, rfl⟩ := recordEvent_eq_ok hs₁
      obtain ⟨_, rfl⟩ := recordEvent_eq_ok hs₂
      exact .answered friendshipId _ s.now rfl rfl rfl rfl
    · obtain ⟨-, h⟩ := require_bind_eq_ok.mp h
      obtain ⟨_, -, h⟩ := bind_eq_ok.mp h
      cases h
      exact .quiet rfl rfl rfl rfl

theorem createRoom_change {actorId : UUID} {name : Str} {roomId : UUID} {view : RoomView}
    (h : Collaboration.createRoom s actorId name roomId = .ok (view, s')) : CollaborationChange s s' := by
  obtain ⟨normalizedName, -, h⟩ := bind_eq_ok.mp h
  obtain ⟨-, h⟩ := require_bind_eq_ok.mp h
  obtain ⟨-, h⟩ := require_bind_eq_ok.mp h
  obtain ⟨rooms, hrooms, h⟩ := bind_eq_ok.mp h
  obtain ⟨hfresh, rfl⟩ := insertUnique_eq_ok.mp hrooms
  obtain ⟨members, hmembers, h⟩ := bind_eq_ok.mp h
  obtain ⟨hfreshHost, rfl⟩ := insertUnique_eq_ok.mp hmembers
  obtain ⟨s₁, hs₁, h⟩ := bind_eq_ok.mp h
  cases h
  obtain ⟨_, rfl⟩ := recordEvent_eq_ok hs₁
  exact .made _ _ hfresh hfreshHost ⟨rfl, rfl, rfl, rfl⟩ rfl rfl rfl rfl

theorem lockedRoomMembership_eq_some {roomId actorId : UUID} {m : Membership}
    (h : Collaboration.lockedRoomMembership s roomId actorId = some m) :
    m ∈ s.roomMemberships ∧ m.roomId = roomId ∧ m.userId = actorId ∧ m.leftAt = none := by
  rw [Collaboration.lockedRoomMembership] at h
  split at h
  · exact ⟨List.mem_of_find?_eq_some h, of_decide_eq_true (List.find?_some h :)⟩
  · exact nomatch h

theorem leaveRoom_change {actorId roomId : UUID}
    (h : Collaboration.leaveRoom s actorId roomId = .ok ((), s')) : CollaborationChange s s' := by
  rw [Collaboration.leaveRoom] at h
  split at h
  · exact nomatch h
  · next m hm =>
    obtain ⟨hmem, hroom, huser, -⟩ := lockedRoomMembership_eq_some hm
    obtain ⟨hrole, h⟩ := require_bind_eq_ok.mp h
    obtain ⟨s₁, hs₁, h⟩ := bind_eq_ok.mp h
    cases h
    obtain ⟨_, rfl⟩ := recordEvent_eq_ok hs₁
    have hmember : m.role = .member := by
      cases hm : m.role
      · exact absurd hm hrole
      · rfl
    exact .left roomId actorId s.now ⟨m, hmem, hroom, huser, hmember⟩ rfl rfl rfl rfl

/-- Who has a membership row without an invitation is the owner. -/
theorem CollaborationInvariant.owner_of_uninvited (h : CollaborationInvariant s) {m : Membership}
    (hm : m ∈ s.roomMemberships)
    (hnone : ∀ i ∈ s.roomInvitations, ¬(i.roomId = m.roomId ∧ i.inviteeId = m.userId)) :
    ∃ r ∈ s.rooms, r.id = m.roomId ∧ r.ownerId = m.userId := by
  cases hrole : m.role with
  | host => exact (h.hostOf m hm hrole).2
  | member =>
    obtain ⟨i, hi, hkey⟩ := h.invited m hm hrole
    exact absurd hkey (hnone i hi)

theorem createRoomInvitation_change (hinvariant : CollaborationInvariant s)
    {actorId roomId inviteeId invitationId : UUID} {view : RoomInvitationView}
    (h : Collaboration.createRoomInvitation s actorId roomId inviteeId invitationId = .ok (view, s')) :
    CollaborationChange s s' := by
  obtain ⟨hself, h⟩ := require_bind_eq_ok.mp h
  split at h
  · exact nomatch h
  next m hm =>
  obtain ⟨hmem, hmroom, hmuser, -⟩ := lockedRoomMembership_eq_some hm
  obtain ⟨hrole, h⟩ := require_bind_eq_ok.mp h
  obtain ⟨-, h⟩ := require_bind_eq_ok.mp h
  obtain ⟨⟨f, hf, hfaccepted⟩, h⟩ := require_bind_eq_ok.mp h
  obtain ⟨-, r, hr, hrid, hrowner⟩ := hinvariant.hostOf m hmem hrole
  rw [hmroom] at hrid
  rw [hmuser] at hrowner
  have hfriends : AreFriends s actorId inviteeId :=
    ⟨f, List.mem_of_find?_eq_some hf, of_decide_eq_true (List.find?_some hf :), hfaccepted⟩
  dsimp only at h
  obtain ⟨hreplay, h⟩ := require_bind_eq_ok.mp h
  cases hinvitation : s.roomInvitations.find? fun i ↦ i.roomId = roomId ∧ i.inviteeId = inviteeId with
  | none =>
    have hnoInvitation : ∀ i ∈ s.roomInvitations, ¬(i.roomId = roomId ∧ i.inviteeId = inviteeId) :=
      fun i hi hkey ↦ List.find?_eq_none.mp hinvitation i hi (decide_eq_true hkey)
    -- a member without an invitation would be the owner, who is the actor
    have hnoMember : ∀ m' ∈ s.roomMemberships, ¬(m'.roomId = roomId ∧ m'.userId = inviteeId) := by
      rintro m' hm' ⟨hroom', huser'⟩
      obtain ⟨r', hr', hrid', hrowner'⟩ := hinvariant.owner_of_uninvited hm'
        (by rw [hroom', huser']; exact hnoInvitation)
      have hsame : r' = r :=
        eq_of_key_eq hinvariant.roomIds hr' hr ((hrid'.trans hroom').trans hrid.symm)
      exact hself (hrowner.symm.trans ((hsame ▸ hrowner').trans huser'))
    have hmembership : s.roomMemberships.find? (fun m ↦ m.roomId = roomId ∧ m.userId = inviteeId) =
        none := List.find?_eq_none.mpr fun m' hm' hkey ↦ hnoMember m' hm' (of_decide_eq_true hkey)
    rw [hinvitation, hmembership] at h
    obtain ⟨⟨invitation, s₁⟩, hs₁, h⟩ := bind_eq_ok.mp h
    obtain ⟨invitations, hinvitations, hs₁⟩ := bind_eq_ok.mp hs₁
    obtain ⟨hfresh, rfl⟩ := insertUnique_eq_ok.mp hinvitations
    obtain ⟨rfl, rfl⟩ := Prod.mk.inj (Except.ok.inj hs₁)
    obtain ⟨s₂, hs₂, h⟩ := bind_eq_ok.mp h
    obtain ⟨memberships, hmemberships, hs₂⟩ := bind_eq_ok.mp hs₂
    obtain ⟨hfreshMember, rfl⟩ := insertUnique_eq_ok.mp hmemberships
    cases hs₂
    obtain ⟨s₃, hs₃, h⟩ := bind_eq_ok.mp h
    cases h
    obtain ⟨_, rfl⟩ := recordEvent_eq_ok hs₃
    exact .admitted _ _ hfresh hfreshMember ⟨r, hr, hrid, hrowner⟩ hfriends ⟨rfl, rfl, rfl, rfl⟩ rfl rfl
      rfl rfl
  | some i =>
    have hi := List.mem_of_find?_eq_some hinvitation
    have haccepted := (hinvariant.accepted i hi).1
    rw [hinvitation] at h hreplay
    have hpresent := not_and.mp hreplay ⟨i, rfl, haccepted⟩
    cases hmembership : s.roomMemberships.find? fun m ↦ m.roomId = roomId ∧ m.userId = inviteeId with
    | none =>
      rw [hmembership] at hpresent
      exact absurd (fun m hm ↦ nomatch hm) hpresent
    | some m' =>
      rw [hmembership] at h hpresent
      have hactive : m'.leftAt = none := by
        by_contra hleft
        exact hpresent fun m hm ↦ Option.some.inj hm ▸ hleft
      have hinvited : Collaboration.admitInvitation s actorId roomId inviteeId invitationId (some i) =
          .ok (i, s) := if_neg (not_not.mpr haccepted)
      have hmember : Collaboration.admitMembership s roomId inviteeId (some m') = .ok s :=
        if_neg (not_not.mpr hactive)
      rw [hinvited, ok_bind] at h
      dsimp only at h
      rw [hmember, ok_bind, if_neg] at h
      · cases h
        exact .quiet rfl rfl rfl rfl
      · exact fun hchanged ↦ hchanged.elim (fun hnot ↦ hnot ⟨i, rfl, haccepted⟩) hpresent

theorem collaborationStep_change (hinvariant : CollaborationInvariant s) (input : CollaborationInput) :
    CollaborationChange s (collaborationStep s input).2 := by
  have hcall : ∀ {α : Type} (reply : α → CollaborationReply)
      (call : Except CollaborationError (α × CollaborationState)),
      (∀ a s', call = .ok (a, s') → CollaborationChange s s') →
        CollaborationChange s (collaborationCall s reply call).2 := by
    intro α reply call hcall
    match call with
    | .ok (a, s') => exact hcall a s' rfl
    | .error e => exact .quiet rfl rfl rfl rfl
  cases input with
  | createFriendRequest => exact hcall _ _ fun _ _ hs ↦ createFriendRequest_change hs
  | respondToFriendRequest => exact hcall _ _ fun _ _ hs ↦ respondToFriendRequest_change hs
  | createRoom => exact hcall _ _ fun _ _ hs ↦ createRoom_change hs
  | createRoomInvitation => exact hcall _ _ fun _ _ hs ↦ createRoomInvitation_change hinvariant hs
  | leaveRoom => exact hcall _ _ fun _ _ hs ↦ leaveRoom_change hs
  | users => exact .quiet rfl rfl rfl rfl
  | advance => exact .quiet rfl rfl rfl rfl

end Change

/-! ## The invariant -/

section Invariant

variable {s s' : CollaborationState}

theorem collaborationInvariant_noRooms (preferences : List NotificationPreference) (now : Timestamp) :
    CollaborationInvariant (noRooms preferences now) :=
  ⟨List.nodup_nil, List.Pairwise.nil, List.nodup_nil, List.nodup_nil, List.forall_mem_nil _,
    List.forall_mem_nil _, List.forall_mem_nil _, List.forall_mem_nil _, List.nodup_nil,
    List.forall_mem_nil _⟩

/-- A membership that a departure has written to is no host's. -/
theorem CollaborationInvariant.member_of_left (h : CollaborationInvariant s) {roomId userId : UUID}
    (hmember : ∃ m ∈ s.roomMemberships, m.roomId = roomId ∧ m.userId = userId ∧ m.role = .member)
    {m : Membership} (hm : m ∈ s.roomMemberships) (hkey : m.roomId = roomId ∧ m.userId = userId) :
    m.role = .member := by
  obtain ⟨m', hm', hroom, huser, hrole⟩ := hmember
  have hsame : m = m' :=
    eq_of_key_eq h.memberKeys hm hm' (Prod.ext (hkey.1.trans hroom.symm) (hkey.2.trans huser.symm))
  rw [hsame, hrole]

/-- The step lemma. -/
theorem CollaborationInvariant.change (h : CollaborationInvariant s) (hchange : CollaborationChange s s') :
    CollaborationInvariant s' := by
  cases hchange with
  | quiet hfriendships hrooms hmembers hinvitations =>
    refine ⟨?_, ?_, ?_, ?_, ?_, ?_, ?_, ?_, ?_, ?_⟩ <;>
      simp only [hfriendships, hrooms, hmembers, hinvitations]
    exacts [h.friendshipIds, h.pairs, h.roomIds, h.memberKeys, h.hosts, h.hostOf, h.roomOf, h.invited,
      h.invitations, h.accepted]
  | requested row hfresh hfriendships hrooms hmembers hinvitations =>
    refine ⟨?_, ?_, ?_, ?_, ?_, ?_, ?_, ?_, ?_, ?_⟩ <;>
      simp only [hfriendships, hrooms, hmembers, hinvitations]
    · exact nodup_map_append_singleton h.friendshipIds fun f hf hid ↦ hfresh f hf (Or.inl hid)
    · refine List.pairwise_append.mpr ⟨h.pairs, List.pairwise_singleton _ _, fun f hf g hg ↦ ?_⟩
      rw [List.mem_singleton.mp hg]
      exact fun hpair ↦ hfresh f hf (Or.inr hpair)
    all_goals first
      | exact h.roomIds | exact h.memberKeys | exact h.hosts | exact h.hostOf | exact h.roomOf
      | exact h.invited | exact h.invitations | exact h.accepted
  | answered id status stamp hfriendships hrooms hmembers hinvitations =>
    refine ⟨?_, ?_, ?_, ?_, ?_, ?_, ?_, ?_, ?_, ?_⟩ <;>
      simp only [hfriendships, hrooms, hmembers, hinvitations]
    · have hids : (updateWhere (fun f : Friendship ↦ f.id = id ∧ f.status = .pending)
          (fun f ↦ { f with status := status, respondedAt := some stamp }) s.friendships).map (·.id) =
            s.friendships.map (·.id) := map_updateWhere_of_forall fun _ ↦ rfl
      rw [hids]
      exact h.friendshipIds
    · refine List.pairwise_map.mpr (h.pairs.imp fun {f g} hpair ↦ ?_)
      split_ifs <;> exact hpair
    all_goals first
      | exact h.roomIds | exact h.memberKeys | exact h.hosts | exact h.hostOf | exact h.roomOf
      | exact h.invited | exact h.invitations | exact h.accepted
  | made room host hfresh hfreshHost hhost hfriendships hrooms hmembers hinvitations =>
    obtain ⟨hroom, huser, hrole, hleft⟩ := hhost
    have hkept : ∀ {p : Room → Prop}, (∃ r ∈ s.rooms, p r) → ∃ r ∈ s.rooms ++ [room], p r := by
      rintro p ⟨r, hr, hp⟩
      exact ⟨r, List.mem_append_left _ hr, hp⟩
    have hself : room ∈ s.rooms ++ [room] := List.mem_append_right _ (List.mem_singleton_self room)
    refine ⟨?_, ?_, ?_, ?_, ?_, ?_, ?_, ?_, ?_, ?_⟩ <;>
      simp only [hfriendships, hrooms, hmembers, hinvitations]
    · exact h.friendshipIds
    · exact h.pairs
    · exact nodup_map_append_singleton h.roomIds hfresh
    · exact nodup_map_append_singleton h.memberKeys fun m hm hkey ↦ hfreshHost m hm (Prod.mk.inj hkey)
    · refine List.forall_mem_append.mpr ⟨fun r hr ↦ ?_, List.forall_mem_singleton.mpr ?_⟩
      · obtain ⟨m, hm, hm'⟩ := h.hosts r hr
        exact ⟨m, List.mem_append_left _ hm, hm'⟩
      · exact ⟨host, List.mem_append_right _ (List.mem_singleton_self host), hroom, hrole⟩
    · refine List.forall_mem_append.mpr ⟨fun m hm hmrole ↦ ?_, List.forall_mem_singleton.mpr fun _ ↦ ?_⟩
      · exact ⟨(h.hostOf m hm hmrole).1, hkept (h.hostOf m hm hmrole).2⟩
      · exact ⟨hleft, room, hself, hroom.symm, huser.symm⟩
    · exact List.forall_mem_append.mpr ⟨fun m hm ↦ hkept (h.roomOf m hm),
        List.forall_mem_singleton.mpr ⟨room, hself, hroom.symm⟩⟩
    · refine List.forall_mem_append.mpr ⟨h.invited, List.forall_mem_singleton.mpr fun hmember ↦ ?_⟩
      cases hrole.symm.trans hmember
    · exact h.invitations
    · exact fun i hi ↦ ⟨(h.accepted i hi).1, hkept (h.accepted i hi).2⟩
  | admitted invitation member hfresh hfreshMember hroom hfriends hmember hfriendships hrooms hmembers
      hinvitations =>
    obtain ⟨hmroom, hmuser, hmrole, hstatus⟩ := hmember
    refine ⟨?_, ?_, ?_, ?_, ?_, ?_, ?_, ?_, ?_, ?_⟩ <;>
      simp only [hfriendships, hrooms, hmembers, hinvitations]
    · exact h.friendshipIds
    · exact h.pairs
    · exact h.roomIds
    · exact nodup_map_append_singleton h.memberKeys fun m hm hkey ↦
        hfreshMember m hm (Prod.mk.inj hkey)
    · intro r hr
      obtain ⟨m, hm, hm'⟩ := h.hosts r hr
      exact ⟨m, List.mem_append_left _ hm, hm'⟩
    · refine List.forall_mem_append.mpr ⟨h.hostOf, List.forall_mem_singleton.mpr fun hhost ↦ ?_⟩
      cases hmrole.symm.trans hhost
    · obtain ⟨r, hr, hrid, -⟩ := hroom
      exact List.forall_mem_append.mpr ⟨h.roomOf,
        List.forall_mem_singleton.mpr ⟨r, hr, hrid.trans hmroom.symm⟩⟩
    · refine List.forall_mem_append.mpr ⟨fun m hm hm' ↦ ?_, List.forall_mem_singleton.mpr fun _ ↦ ?_⟩
      · obtain ⟨i, hi, hkey⟩ := h.invited m hm hm'
        exact ⟨i, List.mem_append_left _ hi, hkey⟩
      · exact ⟨invitation, List.mem_append_right _ (List.mem_singleton_self _), hmroom.symm, hmuser.symm⟩
    · exact nodup_map_append_singleton h.invitations fun i hi hkey ↦
        hfresh i hi (Or.inr (Prod.mk.inj hkey))
    · exact List.forall_mem_append.mpr ⟨h.accepted, List.forall_mem_singleton.mpr ⟨hstatus, hroom⟩⟩
  | left roomId userId stamp hmember hfriendships hrooms hmembers hinvitations =>
    have hkeys : s'.roomMemberships.map (fun m ↦ (m.roomId, m.userId)) =
        s.roomMemberships.map fun m ↦ (m.roomId, m.userId) := by
      rw [hmembers]
      exact map_updateWhere_of_forall fun _ ↦ rfl
    -- every row is an old one but for the time of departure, and a host's row is an old one
    have hold : ∀ m ∈ s'.roomMemberships, ∃ m₀ ∈ s.roomMemberships, m₀.roomId = m.roomId ∧
        m₀.userId = m.userId ∧ m₀.role = m.role ∧ (m.role = .host → m₀ = m) := by
      intro m hm
      rw [hmembers] at hm
      rcases mem_updateWhere.mp hm with ⟨m₀, hm₀, ⟨hroom, huser, -⟩, rfl⟩ | ⟨hm, -⟩
      · refine ⟨m₀, hm₀, rfl, rfl, rfl, fun hhost ↦ ?_⟩
        cases (h.member_of_left hmember hm₀ ⟨hroom, huser⟩).symm.trans hhost
      · exact ⟨m, hm, rfl, rfl, rfl, fun _ ↦ rfl⟩
    refine ⟨?_, ?_, ?_, hkeys ▸ h.memberKeys, ?_, ?_, ?_, ?_, ?_, ?_⟩ <;>
      simp only [hfriendships, hrooms, hinvitations]
    · exact h.friendshipIds
    · exact h.pairs
    · exact h.roomIds
    · intro r hr
      obtain ⟨m, hm, hroom, hrole⟩ := h.hosts r hr
      refine ⟨m, ?_, hroom, hrole⟩
      rw [hmembers]
      refine mem_updateWhere_of_not hm fun hleft ↦ ?_
      cases (h.member_of_left hmember hm ⟨hleft.1, hleft.2.1⟩).symm.trans hrole
    · intro m hm hrole
      obtain ⟨m₀, hm₀, -, -, -, hsame⟩ := hold m hm
      obtain rfl := hsame hrole
      exact h.hostOf _ hm₀ hrole
    · intro m hm
      obtain ⟨m₀, hm₀, hroom, -⟩ := hold m hm
      exact hroom ▸ h.roomOf m₀ hm₀
    · intro m hm hrole
      obtain ⟨m₀, hm₀, hroom, huser, hrole₀, -⟩ := hold m hm
      rw [← hroom, ← huser]
      exact h.invited m₀ hm₀ (hrole₀.trans hrole)
    · exact h.invitations
    · exact h.accepted

theorem collaborationInvariant_exec (h : CollaborationInvariant s) (inputs : List CollaborationInput) :
    CollaborationInvariant (collaborationMachine.exec s inputs) := by
  have hlegal : collaborationMachine.Legal s inputs := Machine.along_iff.mpr fun _ _ _ _ ↦ trivial
  exact hlegal.invariant h fun s input h _ ↦ h.change (collaborationStep_change h input)

/-- A user has one membership of a room at most. -/
theorem CollaborationInvariant.membership_unique (h : CollaborationInvariant s) {m m' : Membership}
    (hm : m ∈ s.roomMemberships) (hm' : m' ∈ s.roomMemberships) (hroom : m.roomId = m'.roomId)
    (huser : m.userId = m'.userId) : m = m' :=
  eq_of_key_eq h.memberKeys hm hm' (Prod.ext hroom huser)

end Invariant

/-! ## What is for good -/

/-- Answers stay, and so do departures. -/
structure CollaborationKept (s s' : CollaborationState) : Prop where
  answers : ∀ f ∈ s.friendships, f.status ≠ .pending → f ∈ s'.friendships
  departures : ∀ m ∈ s.roomMemberships, m.leftAt ≠ none → m ∈ s'.roomMemberships

theorem CollaborationKept.refl (s : CollaborationState) : CollaborationKept s s :=
  ⟨fun _ hf _ ↦ hf, fun _ hm _ ↦ hm⟩

theorem CollaborationKept.trans {s₁ s₂ s₃ : CollaborationState} (h : CollaborationKept s₁ s₂)
    (h' : CollaborationKept s₂ s₃) : CollaborationKept s₁ s₃ :=
  ⟨fun f hf hanswered ↦ h'.answers f (h.answers f hf hanswered) hanswered,
    fun m hm hleft ↦ h'.departures m (h.departures m hm hleft) hleft⟩

theorem CollaborationChange.kept {s s' : CollaborationState} (hchange : CollaborationChange s s') :
    CollaborationKept s s' := by
  have hmore : ∀ {α : Type} {t t' : List α} {a : α} (x : α), t' = t ++ [a] → x ∈ t → x ∈ t' :=
    fun _ ht hx ↦ ht ▸ List.mem_append_left _ hx
  cases hchange with
  | quiet hfriendships _ hmembers =>
    exact ⟨fun f hf _ ↦ hfriendships ▸ hf, fun m hm _ ↦ hmembers ▸ hm⟩
  | requested _ _ hfriendships _ hmembers =>
    exact ⟨fun f hf _ ↦ hmore f hfriendships hf, fun m hm _ ↦ hmembers ▸ hm⟩
  | answered _ _ _ hfriendships _ hmembers =>
    refine ⟨fun f hf hanswered ↦ ?_, fun m hm _ ↦ hmembers ▸ hm⟩
    rw [hfriendships]
    exact mem_updateWhere_of_not hf fun hpending ↦ hanswered hpending.2
  | made _ _ _ _ _ hfriendships _ hmembers =>
    exact ⟨fun f hf _ ↦ hfriendships ▸ hf, fun m hm _ ↦ hmore m hmembers hm⟩
  | admitted _ _ _ _ _ _ _ hfriendships _ hmembers =>
    exact ⟨fun f hf _ ↦ hfriendships ▸ hf, fun m hm _ ↦ hmore m hmembers hm⟩
  | left _ _ _ _ hfriendships _ hmembers =>
    refine ⟨fun f hf _ ↦ hfriendships ▸ hf, fun m hm hleft ↦ ?_⟩
    rw [hmembers]
    exact mem_updateWhere_of_not hm fun hactive ↦ hleft hactive.2.2

theorem CollaborationInvariant.kept_run {s : CollaborationState} (h : CollaborationInvariant s)
    (inputs : List CollaborationInput) : CollaborationKept s (collaborationMachine.exec s inputs) := by
  -- the invariant is what lets every step be classified, so it is carried along the run
  have hlegal : collaborationMachine.Along (fun s _ ↦ CollaborationInvariant s ∧ True) s inputs :=
    (Machine.along_iff.mpr fun _ _ _ _ ↦ trivial : collaborationMachine.Legal s inputs).with_invariant h
      fun s input h _ ↦ h.change (collaborationStep_change h input)
  exact hlegal.relates CollaborationKept.refl CollaborationKept.trans
    fun s input hs ↦ (collaborationStep_change hs.1 input).kept

/-! ## Where invitations come from -/

/-- An operation of the run issued the invitation, when its inviter and its invitee were friends. -/
def IssuedToFriend (s : CollaborationState) (inputs : List CollaborationInput) (i : Invitation) : Prop :=
  ∃ before input after, inputs = before ++ input :: after ∧
    i ∉ (collaborationMachine.exec s before).roomInvitations ∧
    i ∈ (collaborationMachine.exec s (before ++ [input])).roomInvitations ∧
    AreFriends (collaborationMachine.exec s before) i.inviterId i.inviteeId

theorem IssuedToFriend.more {s : CollaborationState} {inputs : List CollaborationInput} {i : Invitation}
    (h : IssuedToFriend s inputs i) (input : CollaborationInput) :
    IssuedToFriend s (inputs ++ [input]) i := by
  obtain ⟨before, issuing, after, rfl, h⟩ := h
  exact ⟨before, issuing, after ++ [input], by simp, h⟩

theorem issuedToFriend_of_mem {s : CollaborationState} (h : CollaborationInvariant s)
    (hnone : s.roomInvitations = []) (inputs : List CollaborationInput) {i : Invitation}
    (hi : i ∈ (collaborationMachine.exec s inputs).roomInvitations) : IssuedToFriend s inputs i := by
  induction inputs using List.reverseRecOn with
  | nil =>
    rw [Machine.exec_nil, hnone] at hi
    exact absurd hi List.not_mem_nil
  | append_singleton inputs input ih =>
    -- the invitation was there before the last step, unless that step is the one that issued it
    have hinvariant := collaborationInvariant_exec h inputs
    have hstep := collaborationStep_change hinvariant input
    have hold : (collaborationMachine.exec s (inputs ++ [input])).roomInvitations =
        (collaborationMachine.exec s inputs).roomInvitations → IssuedToFriend s (inputs ++ [input]) i :=
      fun hsame ↦ (ih (hsame ▸ hi)).more input
    have hexec := Machine.exec_concat (M := collaborationMachine) s inputs input
    cases hstep with
    | quiet _ _ _ hsame => exact hold (hexec ▸ hsame)
    | requested _ _ _ _ _ hsame => exact hold (hexec ▸ hsame)
    | answered _ _ _ _ _ _ hsame => exact hold (hexec ▸ hsame)
    | made _ _ _ _ _ _ _ _ hsame => exact hold (hexec ▸ hsame)
    | left _ _ _ _ _ _ _ hsame => exact hold (hexec ▸ hsame)
    | admitted invitation _ hfresh _ _ hfriends _ _ _ _ hadded =>
      have hadded : (collaborationMachine.exec s (inputs ++ [input])).roomInvitations =
          (collaborationMachine.exec s inputs).roomInvitations ++ [invitation] := hexec ▸ hadded
      rcases List.mem_append.mp (hadded ▸ hi) with hbefore | hnew
      · exact (ih hbefore).more input
      · obtain rfl := List.mem_singleton.mp hnew
        exact ⟨inputs, input, [], rfl, fun hbefore ↦ hfresh i hbefore (Or.inl rfl), hi, hfriends⟩

/-! ## Rooms and friendships in every state -/

/-- The host memberships of a room. -/
def hostsOf (s : CollaborationState) (r : Room) : List Membership :=
  s.roomMemberships.filter fun m ↦ m.roomId = r.id ∧ m.role = .host

section Reached

variable {s : CollaborationState}

theorem CollaborationInvariant.owner_hosts (h : CollaborationInvariant s) {r : Room} (hr : r ∈ s.rooms)
    {m : Membership} (hm : m ∈ s.roomMemberships) (hroom : m.roomId = r.id) (hrole : m.role = .host) :
    m.userId = r.ownerId ∧ m.leftAt = none := by
  obtain ⟨hactive, r', hr', hid, howner⟩ := h.hostOf m hm hrole
  have hsame : r' = r := eq_of_key_eq h.roomIds hr' hr (hid.trans hroom)
  exact ⟨howner.symm.trans (congrArg Room.ownerId hsame), hactive⟩

theorem CollaborationInvariant.one_host (h : CollaborationInvariant s) {r : Room} (hr : r ∈ s.rooms) :
    ∃ m, hostsOf s r = [m] ∧ m.userId = r.ownerId ∧ m.leftAt = none := by
  obtain ⟨m, hm, hroom, hrole⟩ := h.hosts r hr
  obtain ⟨huser, hactive⟩ := h.owner_hosts hr hm hroom hrole
  refine ⟨m, ?_, huser, hactive⟩
  -- two hosts are both the owner, so they have one key
  have hkey : hostsOf s r = s.roomMemberships.filter
      fun m' ↦ (m'.roomId, m'.userId) = (m.roomId, m.userId) := by
    refine List.filter_congr fun m' hm' ↦ decide_eq_decide.mpr ⟨fun ⟨hroom', hrole'⟩ ↦ ?_, fun hkey ↦ ?_⟩
    · exact Prod.ext (hroom'.trans hroom.symm)
        ((h.owner_hosts hr hm' hroom' hrole').1.trans huser.symm)
    · obtain rfl := eq_of_key_eq h.memberKeys hm' hm hkey
      exact ⟨hroom, hrole⟩
  rw [hkey]
  exact filter_key_eq_singleton h.memberKeys hm

theorem CollaborationInvariant.one_friendship (h : CollaborationInvariant s) (a b : UUID) :
    (s.friendships.filter (·.IsPair a b)).length ≤ 1 := by
  have hpairs : (s.friendships.filter (·.IsPair a b)).Pairwise
      fun f g ↦ ¬f.IsPair g.requesterId g.addresseeId := h.pairs.sublist List.filter_sublist
  have hmem : ∀ f ∈ s.friendships.filter (·.IsPair a b), f.IsPair a b :=
    fun f hf ↦ of_decide_eq_true (List.mem_filter.mp hf).2
  generalize s.friendships.filter (·.IsPair a b) = found at hpairs hmem ⊢
  match found, hpairs, hmem with
  | [], _, _ => exact Nat.zero_le 1
  | [_], _, _ => exact Nat.le_refl 1
  | f :: g :: _, hpairs, hmem =>
    have hf := hmem f List.mem_cons_self
    have hg := hmem g (List.mem_cons_of_mem _ List.mem_cons_self)
    refine absurd ?_ ((List.pairwise_cons.mp hpairs).1 g List.mem_cons_self)
    rcases hg with ⟨rfl, rfl⟩ | ⟨rfl, rfl⟩
    · exact hf
    · exact hf.symm

/-- A member who is not the owner holds an accepted invitation of the owner. -/
theorem CollaborationInvariant.invited_by_owner (h : CollaborationInvariant s) {r : Room}
    (hr : r ∈ s.rooms) {m : Membership} (hm : m ∈ s.roomMemberships) (hroom : m.roomId = r.id)
    (hother : m.userId ≠ r.ownerId) : ∃ i ∈ s.roomInvitations, i.roomId = r.id ∧
      i.inviteeId = m.userId ∧ i.inviterId = r.ownerId ∧ i.status = .accepted := by
  have hrole : m.role = .member := by
    cases hrole : m.role with
    | host => exact absurd (h.owner_hosts hr hm hroom hrole).1 hother
    | member => rfl
  obtain ⟨i, hi, hiroom, hinvitee⟩ := h.invited m hm hrole
  obtain ⟨haccepted, r', hr', hid, howner⟩ := h.accepted i hi
  obtain rfl : r' = r := eq_of_key_eq h.roomIds hr' hr (hid.trans (hiroom.trans hroom))
  exact ⟨i, hi, hiroom.trans hroom, hinvitee, howner.symm, haccepted⟩

end Reached

/-- **Rooms admit their owner and the owner's friends.** After any operations, each room has one host, the
owner, who has not left, every other active member holds an accepted invitation that the owner issued when
the two were friends, and a pair of users has one friendship at most. What was answered and who had left
at any time before is still so. -/
theorem collaboration_rooms (preferences : List NotificationPreference) (now : Timestamp)
    (inputs : List CollaborationInput) :
    let s₀ := noRooms preferences now
    let s := collaborationMachine.exec s₀ inputs
    (∀ r ∈ s.rooms, ∃ m, hostsOf s r = [m] ∧ m.userId = r.ownerId ∧ m.leftAt = none) ∧
      (∀ r ∈ s.rooms, ∀ m ∈ s.roomMemberships, m.roomId = r.id → m.leftAt = none →
        m.userId ≠ r.ownerId → ∃ i ∈ s.roomInvitations, i.roomId = r.id ∧ i.inviteeId = m.userId ∧
          i.inviterId = r.ownerId ∧ i.status = .accepted ∧ IssuedToFriend s₀ inputs i) ∧
      (∀ a b, (s.friendships.filter (·.IsPair a b)).length ≤ 1) ∧
      ∀ before after, inputs = before ++ after →
        (∀ f ∈ (collaborationMachine.exec s₀ before).friendships, f.status ≠ .pending →
          s.friendships.filter (·.id = f.id) = [f]) ∧
        ∀ m ∈ (collaborationMachine.exec s₀ before).roomMemberships, m.leftAt ≠ none →
          ∀ m' ∈ s.roomMemberships, m'.roomId = m.roomId → m'.userId = m.userId → m'.leftAt ≠ none := by
  intro s₀ s
  have h₀ : CollaborationInvariant s₀ := collaborationInvariant_noRooms preferences now
  have h : CollaborationInvariant s := collaborationInvariant_exec h₀ inputs
  refine ⟨fun r hr ↦ h.one_host hr, fun r hr m hm hroom _ hother ↦ ?_, h.one_friendship, ?_⟩
  · obtain ⟨i, hi, hiroom, hinvitee, hinviter, haccepted⟩ := h.invited_by_owner hr hm hroom hother
    exact ⟨i, hi, hiroom, hinvitee, hinviter, haccepted, issuedToFriend_of_mem h₀ rfl inputs hi⟩
  · intro before after hsplit
    have hkept : CollaborationKept (collaborationMachine.exec s₀ before) s := by
      have hrun := (collaborationInvariant_exec h₀ before).kept_run after
      rwa [← Machine.exec_append, ← hsplit] at hrun
    constructor
    · intro f hf hanswered
      exact filter_key_eq_singleton h.friendshipIds (hkept.answers f hf hanswered)
    · intro m hm hleft m' hm' hroom huser
      rw [h.membership_unique hm' (hkept.departures m hm hleft) hroom huser]
      exact hleft

end MeetingRag
