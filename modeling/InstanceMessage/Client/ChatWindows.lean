import InstanceMessage.Client.FriendList

/-!
# The chat windows of a client

What the chat window of a friend shows that he has written, as a function of the
packets that have come: the contents of the chat messages in his name, in order,
from the packet on that enters him in the friend list. A message in the name of
nobody in the list is dropped. No other packet, and no action of the user, adds
anything, so that windows neither lose nor repeat what has come.
-/

namespace InstanceMessage

open Library

/-- What a chat message in the name of the user is shown as. -/
def chatFrom (qt : Qt) (userId : ℤ) (packet : Bytes) : Option QString :=
  if packetType packet = some defChatRq ∧ StruChatRq.readUserId packet = some userId then
    (StruChatRq.readContent packet).map qt.fromUtf8
  else none

theorem chatFrom_of_type {qt : Qt} {userId : ℤ} {packet : Bytes}
    (other : packetType packet ≠ some defChatRq) : chatFrom qt userId packet = none :=
  if_neg fun chat => other chat.1

/-- Only chat messages are shown. -/
theorem packetType_of_chatFrom {qt : Qt} {userId : ℤ} {packet : Bytes} {text : QString}
    (shown : chatFrom qt userId packet = some text) : packetType packet = some defChatRq :=
  (Option.ite_none_right_eq_some.mp shown).1.1

def ChatLine.heard : ChatLine → Option QString
  | .content text => some text
  | .friendOffline => none

def ChatDialog.heard (dialog : ChatDialog) : List QString := dialog.tbChat.filterMap ChatLine.heard

namespace CKernel

/-- What the chat window of the user shows that he has written. -/
def heard (kernel : CKernel) (id : ℤ) : List QString :=
  match kernel.mMapIdToDialog.lookup id with
  | some dialog => dialog.heard
  | none => []

theorem heard_congr {kernel next : CKernel}
    (windows : next.mMapIdToDialog = kernel.mMapIdToDialog) (id : ℤ) :
    next.heard id = kernel.heard id := by
  rw [heard, heard, windows]

/-- The windows after a packet: a chat message is added where its user has a window. -/
def Hears (qt : Qt) (kernel : CKernel) (packet : Bytes) (next : CKernel) : Prop :=
  ∀ id, next.heard id = kernel.heard id ++
    if (kernel.mMapIdToDialog.lookup id).isSome then (chatFrom qt id packet).toList else []

section Hears

variable {qt : Qt} {kernel next : CKernel} {data : Bytes}

theorem hears_of_type (other : packetType data ≠ some defChatRq)
    (same : ∀ id, next.heard id = kernel.heard id) : kernel.Hears qt data next := by
  intro id
  rw [same, chatFrom_of_type other]
  simp

theorem hears_of_windows (other : packetType data ≠ some defChatRq)
    (windows : next.mMapIdToDialog = kernel.mMapIdToDialog) : kernel.Hears qt data next :=
  hears_of_type other (heard_congr windows)

theorem hears_of_dealChatRq (type : packetType data = some defChatRq)
    (handled : dealChatRq qt kernel data = some next) : kernel.Hears qt data next := by
  rcases Option.bind_eq_some_iff.mp handled with ⟨userId, readUserId, shown⟩
  have from_ {id : ℤ} (other : id ≠ userId) : chatFrom qt id data = none := by
    refine if_neg fun chat => other ?_
    exact Option.some.inj (chat.2.symm.trans readUserId)
  intro id
  by_cases same : id = userId
  · subst same
    split at shown
    · rename_i dialog present
      rcases Option.bind_eq_some_iff.mp shown with ⟨content, readContent, changed⟩
      rcases Option.some.inj changed with rfl
      have chat : chatFrom qt id data = some (qt.fromUtf8 content) := by
        rw [chatFrom, if_pos ⟨type, readUserId⟩, readContent, Option.map_some]
      simp [heard, lookup_assign, present, chat, ChatDialog.heard, ChatDialog.setChatContent,
        ChatLine.heard]
    · rename_i absent
      rcases Option.some.inj shown with rfl
      simp [absent]
  · rw [from_ same]
    split at shown
    · rcases Option.bind_eq_some_iff.mp shown with ⟨content, _, changed⟩
      rcases Option.some.inj changed with rfl
      simp [heard, lookup_assign, same]
    · rcases Option.some.inj shown with rfl
      simp

/-- That a friend is offline is shown beside what he has written. -/
theorem hears_of_dealChatRs (other : packetType data ≠ some defChatRq)
    (handled : kernel.dealChatRs data = some next) : kernel.Hears qt data next := by
  rcases Option.bind_eq_some_iff.mp handled with ⟨friendId, _, shown⟩
  split at shown
  · rename_i dialog present
    rcases Option.some.inj shown with rfl
    refine hears_of_type other fun id => ?_
    by_cases same : id = friendId
    · simp [heard, lookup_assign, same, present, ChatDialog.heard, ChatDialog.showFriendOffline,
        ChatLine.heard]
    · simp [heard, lookup_assign, same]
  · exact Option.some.inj shown ▸ hears_of_windows other rfl

/-- The window of a new friend is empty, and he had none before. -/
theorem hears_of_dealUserInfo (keys : kernel.SameKeys) (other : packetType data ≠ some defChatRq)
    (handled : dealUserInfo qt kernel data = some next) : kernel.Hears qt data next := by
  simp only [dealUserInfo, Option.bind_eq_bind, Option.bind_eq_some_iff] at handled
  rcases handled with ⟨name, _, feeling, _, id, _, iconId, _, handled⟩
  split at handled
  · exact Option.some.inj handled ▸ hears_of_windows other rfl
  · rcases Option.bind_eq_some_iff.mp handled with ⟨status, _, shown⟩
    split at shown
    · exact Option.some.inj shown ▸ hears_of_windows other rfl
    · rename_i absent
      rcases Option.some.inj shown with rfl
      have missing : kernel.mMapIdToDialog.lookup id = none := by
        simpa [absent] using keys id
      refine hears_of_type other fun key => ?_
      by_cases same : key = id
      · simp [heard, lookup_assign, same, missing, ChatDialog.heard]
      · simp [heard, lookup_assign, same]

theorem hears_of_dealLoginRs (other : packetType data ≠ some defChatRq)
    (handled : kernel.dealLoginRs data = some next) : kernel.Hears qt data next := by
  simp only [dealLoginRs, Option.bind_eq_bind, Option.bind_eq_some_iff] at handled
  rcases handled with ⟨id, _, result, _, handled⟩
  split at handled
  · exact Option.some.inj handled ▸ hears_of_windows other rfl
  · exact Option.some.inj handled ▸ hears_of_windows other rfl

theorem hears_of_dealOfflineRq (other : packetType data ≠ some defChatRq)
    (handled : kernel.dealOfflineRq data = some next) : kernel.Hears qt data next := by
  rcases Option.bind_eq_some_iff.mp handled with ⟨userId, _, shown⟩
  split at shown
  · exact Option.some.inj shown ▸ hears_of_windows other rfl
  · exact Option.some.inj shown ▸ hears_of_windows other rfl

theorem hears_of_dealAddFriendRq (other : packetType data ≠ some defChatRq)
    (handled : kernel.dealAddFriendRq data = some next) : kernel.Hears qt data next := by
  simp only [dealAddFriendRq, Option.bind_eq_bind, Option.bind_eq_some_iff] at handled
  rcases handled with ⟨friendId, _, text, _, friendName, _, userName, _, same⟩
  exact Option.some.inj same ▸ hears_of_windows other rfl

/-- What the windows show after a packet. -/
theorem hears_of_slotTransmitData (keys : kernel.SameKeys)
    (transmitted : slotTransmitData qt kernel data = some next) : kernel.Hears qt data next := by
  rcases Option.ite_none_left_eq_some.mp transmitted with ⟨_, read⟩
  rcases Option.bind_eq_some_iff.mp read with ⟨type, typed, handled⟩
  have other {known : ℤ} (different : type ≠ known) : packetType data ≠ some known := by
    rw [typed]
    simpa using different
  simp only at handled
  split at handled
  · split at handled
    · rename_i pf entered
      rcases mFunArrry_cases entered with ⟨rfl, rfl⟩ | ⟨rfl, rfl⟩ | ⟨rfl, rfl⟩ | ⟨rfl, rfl⟩ |
        ⟨rfl, rfl⟩ | ⟨rfl, rfl⟩ | ⟨rfl, rfl⟩ | ⟨rfl, rfl⟩
      · rcases Option.bind_eq_some_iff.mp handled with ⟨result, _, same⟩
        exact Option.some.inj same ▸ hears_of_windows (other (by decide)) rfl
      · exact hears_of_dealLoginRs (other (by decide)) handled
      · exact hears_of_dealUserInfo keys (other (by decide)) handled
      · exact hears_of_dealOfflineRq (other (by decide)) handled
      · exact hears_of_dealChatRq typed handled
      · exact hears_of_dealChatRs (other (by decide)) handled
      · exact hears_of_dealAddFriendRq (other (by decide)) handled
      · simp only [dealAddFriendRs, Option.bind_eq_bind, Option.bind_eq_some_iff] at handled
        rcases handled with ⟨friendName, _, result, _, same⟩
        exact Option.some.inj same ▸ hears_of_windows (other (by decide)) rfl
    · rename_i nothing
      rcases Option.some.inj handled with rfl
      refine hears_of_windows (other ?_) rfl
      rintro rfl
      have entered : mFunArrry qt (defChatRq - defProtocolBase - 1) = some (dealChatRq qt) := rfl
      simp [entered] at nothing
  · rename_i outside
    rcases Option.some.inj handled with rfl
    refine hears_of_windows (other ?_) rfl
    rintro rfl
    exact outside (by decide)

end Hears

/-- Windows belong to users with an id of 32 bits, and to those in the friend list. -/
structure Windowed (kernel : CKernel) : Prop where
  keys : kernel.SameKeys
  range : ∀ id, (kernel.mMapIdToDialog.lookup id).isSome = true → IsInt32 id

theorem windowed_start : ({} : CKernel).Windowed := ⟨fun _ => rfl, fun _ shown => by simp at shown⟩

/-- A window that is there stays there, and a new one is that of a user the packet tells of. -/
theorem Windowed.transmit {qt : Qt} {kernel next : CKernel} {data : Bytes}
    (windowed : kernel.Windowed) (transmitted : slotTransmitData qt kernel data = some next) :
    next.Windowed ∧ ∀ id, (kernel.mMapIdToDialog.lookup id).isSome = true →
      (next.mMapIdToDialog.lookup id).isSome = true := by
  have shows := shows_of_slotTransmitData transmitted
  have keys := shows.keys windowed.keys
  have listed (id : ℤ) : (kernel.status id).isSome = (kernel.mMapIdToDialog.lookup id).isSome := by
    rw [windowed.keys id, CKernel.status, Option.isSome_map]
  have listedNext (id : ℤ) : (next.mMapIdToDialog.lookup id).isSome = (next.status id).isSome := by
    rw [keys id, CKernel.status, Option.isSome_map]
  refine ⟨⟨keys, fun id shown => ?_⟩, fun id shown => ?_⟩
  · rw [listedNext, shows.status] at shown
    split at shown
    · exact windowed.range id (listed id ▸ shown)
    · rw [isSome_statusAfter, Bool.or_eq_true] at shown
      rcases shown with told | old
      · exact isInt32_of_readInt32 (readId_of_tells told)
      · exact windowed.range id (listed id ▸ old)
  · rw [listedNext, shows.status]
    rw [← listed] at shown
    split
    · exact shown
    · rw [isSome_statusAfter, shown, Bool.or_true]

theorem Windowed.act {qt : Qt} {kernel next : CKernel} {action : UserAction}
    {packet : Option Bytes} (windowed : kernel.Windowed)
    (acted : kernel.act qt action = some (next, packet)) : next.Windowed := by
  rcases lists_of_act acted with ⟨forms, dialogs⟩
  refine ⟨fun id => ?_, fun id shown => windowed.range id (dialogs ▸ shown)⟩
  rw [dialogs, forms]
  exact windowed.keys id

end CKernel

end InstanceMessage
