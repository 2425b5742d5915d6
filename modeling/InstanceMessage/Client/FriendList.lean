import InstanceMessage.Client.CKernel

/-!
# The friend list of a client

What the windows of friends show, as a function of the packets that have come:
user information about anybody but the client's own user enters him, or renews
his status, and the packet of a friend who leaves puts him offline. No other
packet, and no action of the user, changes who is listed or with what status.
-/

namespace InstanceMessage

open Library

/-- The status that is shown for the user after the packet. -/
def statusAfter (id : ℤ) (status : Option ℤ) (packet : Bytes) : Option ℤ :=
  if tells id packet then some ((StruUserInfo.readStatus packet).getD defStatusOffline)
  else if departs id packet then status.map fun _ => defStatusOffline
  else status

def statusIn (id : ℤ) (packets : List Bytes) : Option ℤ := packets.foldl (statusAfter id) none

@[simp]
theorem statusIn_append_singleton (id : ℤ) (packets : List Bytes) (packet : Bytes) :
    statusIn id (packets ++ [packet]) = statusAfter id (statusIn id packets) packet := by
  simp [statusIn]

theorem statusAfter_of_not_tells {id : ℤ} {packet : Bytes} (silent : tells id packet = false) :
    statusAfter id none packet = none := by
  simp [statusAfter, silent]

theorem isSome_statusAfter {id : ℤ} {status : Option ℤ} {packet : Bytes} :
    (statusAfter id status packet).isSome = (tells id packet || status.isSome) := by
  simp only [statusAfter]
  split
  · rename_i told
    simp [told]
  · rename_i silent
    split <;> simp [silent]

/-- A user is shown as soon as there has been information about him. -/
theorem isSome_statusIn {id : ℤ} {packets : List Bytes} :
    (statusIn id packets).isSome = packets.any (tells id) := by
  have from_ (status : Option ℤ) : (packets.foldl (statusAfter id) status).isSome =
      (packets.any (tells id) || status.isSome) := by
    induction packets generalizing status with
    | nil => rfl
    | cons packet packets ih =>
        rw [List.foldl_cons, ih, isSome_statusAfter, List.any_cons]
        cases tells id packet <;> simp
  exact (from_ none).trans (Bool.or_false _)

theorem lookup_cons_of_ne {Value : Type} {map : List (ℤ × Value)} {id key : ℤ} {value : Value}
    (other : key ≠ id) : ((id, value) :: map).lookup key = map.lookup key := by
  have different : (key == id) = false := beq_eq_false_iff_ne.mpr other
  rw [List.lookup_cons, different]

theorem lookup_filter_of_ne {Value : Type} (map : List (ℤ × Value)) {id key : ℤ}
    (other : key ≠ id) : (map.filter fun entry => entry.1 ≠ id).lookup key = map.lookup key := by
  induction map with
  | nil => rfl
  | cons entry map ih =>
      rcases entry with ⟨first, value⟩
      by_cases gone : first = id
      · subst gone
        rw [List.filter_cons_of_neg (by simp), ih, lookup_cons_of_ne other]
      · rw [List.filter_cons_of_pos (by simpa using gone), List.lookup_cons, List.lookup_cons, ih]

theorem lookup_assign {Value : Type} (map : List (ℤ × Value)) (id key : ℤ) (value : Value) :
    (assign map id value).lookup key = if key = id then some value else map.lookup key := by
  by_cases same : key = id
  · subst same
    rw [assign, List.lookup_cons_self, if_pos rfl]
  · rw [assign, lookup_cons_of_ne same, lookup_filter_of_ne map same, if_neg same]

namespace CKernel

/-- The status in the form of the user. -/
def status (kernel : CKernel) (id : ℤ) : Option ℤ :=
  (kernel.mMapIdtoForm.lookup id).map FriendForm.mStatus

/-- Every user with a form has a chat window, and no other user has one. -/
def SameKeys (kernel : CKernel) : Prop :=
  ∀ id, (kernel.mMapIdToDialog.lookup id).isSome = (kernel.mMapIdtoForm.lookup id).isSome

/-- The friend list shows what the packet says, unless it is about the client's own user. -/
structure Shows (kernel : CKernel) (packet : Bytes) (next : CKernel) : Prop where
  status : ∀ id, next.status id =
    if tells id packet = true ∧ id = kernel.mUserId then kernel.status id
    else statusAfter id (kernel.status id) packet
  keys : kernel.SameKeys → next.SameKeys

section Shows

variable {qt : Qt} {kernel next : CKernel} {data : Bytes}

/-- Packets of other types leave the forms alone. -/
theorem Shows.of_type (info : packetType data ≠ some defUserInfo)
    (offline : packetType data ≠ some defOfflineRq)
    (forms : next.mMapIdtoForm = kernel.mMapIdtoForm)
    (keys : kernel.SameKeys → next.SameKeys) : kernel.Shows data next := by
  refine ⟨fun id => ?_, keys⟩
  have same : next.status id = kernel.status id := by rw [CKernel.status, forms, CKernel.status]
  simp [statusAfter, not_tells_of_type info, not_departs_of_type offline, same]

theorem Shows.of_windows (info : packetType data ≠ some defUserInfo)
    (offline : packetType data ≠ some defOfflineRq)
    (forms : next.mMapIdtoForm = kernel.mMapIdtoForm)
    (dialogs : next.mMapIdToDialog = kernel.mMapIdToDialog) : kernel.Shows data next := by
  refine .of_type info offline forms fun same id => ?_
  rw [forms, dialogs]
  exact same id

/-- A chat window that is there is replaced. -/
theorem SameKeys.assign (same : kernel.SameKeys) {id : ℤ} {dialog : ChatDialog}
    (here : (kernel.mMapIdToDialog.lookup id).isSome = true) :
    { kernel with
      mMapIdToDialog := InstanceMessage.assign kernel.mMapIdToDialog id dialog }.SameKeys := by
  intro key
  rw [lookup_assign]
  split
  · rename_i found
    rw [found, ← same id, here]
    rfl
  · exact same key

theorem shows_of_dealUserInfo (type : packetType data = some defUserInfo)
    (handled : dealUserInfo qt kernel data = some next) : kernel.Shows data next := by
  simp only [dealUserInfo, Option.bind_eq_bind, Option.bind_eq_some_iff] at handled
  rcases handled with ⟨name, _, feeling, _, id, readId, iconId, _, handled⟩
  have told (other : ℤ) : tells other data = decide (other = id) := by
    simp [tells, type, readId, eq_comm]
  have stays (other : ℤ) : departs other data = false := by
    apply not_departs_of_type
    rw [type]
    decide
  split at handled
  · rename_i own
    rcases Option.some.inj handled with rfl
    refine ⟨fun other => ?_, fun same => same⟩
    by_cases same : other = id
    · simp [told, same, own, CKernel.status]
    · simp [told, same, stays, statusAfter, CKernel.status]
  · rename_i another
    rcases Option.bind_eq_some_iff.mp handled with ⟨status, readStatus, shown⟩
    have shows {form : FriendForm} (kept : form.mStatus = status)
        (forms : next.mMapIdtoForm = InstanceMessage.assign kernel.mMapIdtoForm id form)
        (other : ℤ) : next.status other = if tells other data = true ∧ other = kernel.mUserId then
          kernel.status other else statusAfter other (kernel.status other) data := by
      rw [CKernel.status, forms, lookup_assign]
      by_cases same : other = id
      · simp [told, same, another, statusAfter, readStatus, kept]
      · simp [told, same, stays, statusAfter, CKernel.status]
    split at shown
    · rename_i form present
      rcases Option.some.inj shown with rfl
      refine ⟨shows rfl rfl, fun keys key => ?_⟩
      rw [lookup_assign]
      split
      · rename_i found
        rw [found, keys id, present]
        rfl
      · exact keys key
    · rcases Option.some.inj shown with rfl
      refine ⟨shows rfl rfl, fun keys key => ?_⟩
      rw [lookup_assign, lookup_assign]
      split
      · rfl
      · exact keys key

theorem shows_of_dealOfflineRq (type : packetType data = some defOfflineRq)
    (handled : dealOfflineRq kernel data = some next) : kernel.Shows data next := by
  rcases Option.bind_eq_some_iff.mp handled with ⟨userId, readUserId, shown⟩
  have silent (other : ℤ) : tells other data = false := by
    apply not_tells_of_type
    rw [type]
    decide
  have leaves (other : ℤ) : departs other data = decide (other = userId) := by
    simp [departs, type, readUserId, eq_comm]
  split at shown
  · rename_i form present
    rcases Option.some.inj shown with rfl
    refine ⟨fun other => ?_, fun keys key => ?_⟩
    · rw [CKernel.status, lookup_assign]
      by_cases same : other = userId
      · simp [silent, leaves, same, statusAfter, CKernel.status, present,
          FriendForm.setFriendOffline]
      · simp [silent, leaves, same, statusAfter, CKernel.status]
    · rw [lookup_assign]
      split
      · rename_i found
        rw [found, keys userId, present]
        rfl
      · exact keys key
  · rename_i absent
    rcases Option.some.inj shown with rfl
    refine ⟨fun other => ?_, fun keys => keys⟩
    by_cases same : other = userId
    · simp [silent, same, statusAfter, CKernel.status, absent]
    · simp [silent, leaves, same, statusAfter]

/-- A chat window changes only when it is there. -/
theorem shows_of_dealChatRq (info : packetType data ≠ some defUserInfo)
    (offline : packetType data ≠ some defOfflineRq)
    (handled : dealChatRq qt kernel data = some next) : kernel.Shows data next := by
  rcases Option.bind_eq_some_iff.mp handled with ⟨userId, _, shown⟩
  split at shown
  · rename_i dialog present
    rcases Option.bind_eq_some_iff.mp shown with ⟨content, _, same⟩
    rcases Option.some.inj same with rfl
    exact .of_type info offline rfl fun keys => keys.assign (by rw [present]; rfl)
  · exact Option.some.inj shown ▸ .of_windows info offline rfl rfl

theorem shows_of_dealChatRs (info : packetType data ≠ some defUserInfo)
    (offline : packetType data ≠ some defOfflineRq)
    (handled : kernel.dealChatRs data = some next) : kernel.Shows data next := by
  rcases Option.bind_eq_some_iff.mp handled with ⟨friendId, _, shown⟩
  split at shown
  · rename_i dialog present
    rcases Option.some.inj shown with rfl
    exact .of_type info offline rfl fun keys => keys.assign (by rw [present]; rfl)
  · exact Option.some.inj shown ▸ .of_windows info offline rfl rfl

theorem shows_of_dealLoginRs (info : packetType data ≠ some defUserInfo)
    (offline : packetType data ≠ some defOfflineRq)
    (handled : kernel.dealLoginRs data = some next) : kernel.Shows data next := by
  simp only [dealLoginRs, Option.bind_eq_bind, Option.bind_eq_some_iff] at handled
  rcases handled with ⟨id, _, result, _, handled⟩
  split at handled
  · exact Option.some.inj handled ▸ .of_windows info offline rfl rfl
  · exact Option.some.inj handled ▸ .of_windows info offline rfl rfl

/-- What the friend list shows after a packet. -/
theorem shows_of_slotTransmitData (transmitted : slotTransmitData qt kernel data = some next) :
    kernel.Shows data next := by
  rcases Option.ite_none_left_eq_some.mp transmitted with ⟨_, read⟩
  rcases Option.bind_eq_some_iff.mp read with ⟨type, typed, handled⟩
  have other {known : ℤ} (different : type ≠ known) : packetType data ≠ some known := by
    rw [typed]
    simpa using different
  simp only at handled
  split at handled
  · split at handled
    · rename_i pf entered
      rcases mFunArrry_cases entered with ⟨rfl, rfl⟩ | ⟨rfl, rfl⟩ | ⟨rfl, rfl⟩ | ⟨rfl, rfl⟩ |
        ⟨rfl, rfl⟩ | ⟨rfl, rfl⟩ | ⟨rfl, rfl⟩ | ⟨rfl, rfl⟩
      · rcases Option.bind_eq_some_iff.mp handled with ⟨result, _, same⟩
        exact Option.some.inj same ▸ .of_windows (other (by decide)) (other (by decide)) rfl rfl
      · exact shows_of_dealLoginRs (other (by decide)) (other (by decide)) handled
      · exact shows_of_dealUserInfo typed handled
      · exact shows_of_dealOfflineRq typed handled
      · exact shows_of_dealChatRq (other (by decide)) (other (by decide)) handled
      · exact shows_of_dealChatRs (other (by decide)) (other (by decide)) handled
      · simp only [dealAddFriendRq, Option.bind_eq_bind, Option.bind_eq_some_iff] at handled
        rcases handled with ⟨friendId, _, text, _, friendName, _, userName, _, same⟩
        exact Option.some.inj same ▸ .of_windows (other (by decide)) (other (by decide)) rfl rfl
      · simp only [dealAddFriendRs, Option.bind_eq_bind, Option.bind_eq_some_iff] at handled
        rcases handled with ⟨friendName, _, result, _, same⟩
        exact Option.some.inj same ▸ .of_windows (other (by decide)) (other (by decide)) rfl rfl
    · rename_i nothing
      rcases Option.some.inj handled with rfl
      refine .of_windows (other ?_) (other ?_) rfl rfl
      · rintro rfl
        have entered : mFunArrry qt (defUserInfo - defProtocolBase - 1) = some (dealUserInfo qt) :=
          rfl
        simp [entered] at nothing
      · rintro rfl
        have entered : mFunArrry qt (defOfflineRq - defProtocolBase - 1) = some dealOfflineRq := rfl
        simp [entered] at nothing
  · rename_i outside
    rcases Option.some.inj handled with rfl
    refine .of_windows (other ?_) (other ?_) rfl rfl
    · rintro rfl
      exact outside (by decide)
    · rintro rfl
      exact outside (by decide)

end Shows

/-! ## Actions of the user -/

/-- No action of the user changes who is listed. -/
theorem lists_of_act {qt : Qt} {kernel next : CKernel} {action : UserAction}
    {packet : Option Bytes} (acted : kernel.act qt action = some (next, packet)) :
    next.mMapIdtoForm = kernel.mMapIdtoForm ∧ next.mMapIdToDialog = kernel.mMapIdToDialog := by
  rcases Option.ite_none_left_eq_some.mp acted with ⟨_, acts⟩
  cases action with
  | registerMassage name tel password =>
      simp only [slotRegisterMassage, Option.bind_eq_bind, Option.ite_none_left_eq_some,
        Option.bind_eq_some_iff, Option.some.injEq, Prod.mk.injEq] at acts
      rcases acts with ⟨_, _, _, _, _, _, _, rfl, _⟩
      exact ⟨rfl, rfl⟩
  | loginMassage tel password =>
      simp only [slotLoginMassage, Option.bind_eq_bind, Option.ite_none_left_eq_some,
        Option.bind_eq_some_iff, Option.some.injEq, Prod.mk.injEq] at acts
      rcases acts with ⟨_, _, _, _, _, rfl, _⟩
      exact ⟨rfl, rfl⟩
  | closeProcess =>
      simp only [Option.ite_none_left_eq_some, Option.some.injEq, Prod.mk.injEq] at acts
      rcases acts with ⟨_, rfl, _⟩
      exact ⟨rfl, rfl⟩
  | offlien =>
      simp only [slotOfflien, Option.ite_none_right_eq_some, Option.some.injEq,
        Prod.mk.injEq] at acts
      rcases acts with ⟨_, rfl, _⟩
      exact ⟨rfl, rfl⟩
  | sendMessage friendId content =>
      simp only [slotSendMessage, Option.bind_eq_bind, Option.ite_none_right_eq_some,
        Option.bind_eq_some_iff, Option.some.injEq, Prod.mk.injEq] at acts
      rcases acts with ⟨_, _, _, rfl, _⟩
      exact ⟨rfl, rfl⟩
  | addFriend name =>
      rcases Option.ite_none_right_eq_some.mp acts with ⟨_, slot⟩
      have silent (same : some (kernel, none) = some (next, packet)) :
          next.mMapIdtoForm = kernel.mMapIdtoForm ∧
            next.mMapIdToDialog = kernel.mMapIdToDialog := by
        rcases Prod.mk.inj (Option.some.inj same) with ⟨rfl, _⟩
        exact ⟨rfl, rfl⟩
      simp only [slotAddFriend] at slot
      split at slot
      · exact silent slot
      split at slot
      · exact silent slot
      split at slot
      · exact silent slot
      simp only [Option.bind_eq_bind, Option.bind_eq_some_iff, Option.some.injEq,
        Prod.mk.injEq] at slot
      rcases slot with ⟨_, _, _, _, rfl, _⟩
      exact ⟨rfl, rfl⟩
  | answer agrees =>
      simp only [answer] at acts
      split at acts
      · simp at acts
      · rcases Prod.mk.inj (Option.some.inj acts) with ⟨rfl, _⟩
        exact ⟨rfl, rfl⟩

end CKernel

end InstanceMessage
