import InstanceMessage.Server.Sessions

/-!
# Session binding

An entry `id ↦ s` of `m_mapIdToSocket` is sound when `s` is the handle of an
open and listed connection on which `id` has logged in. Entries are written by
logins and removed by offline requests only: `closeClient` closes the handle
and leaves the map alone, a login whose connection has died meanwhile is
entered nevertheless, and an offline request removes only the entry it names.

`KeepsSessions` excludes the steps in which one of these leaves a bad entry
behind. The logout of a user closes the socket first and removes the entry
afterwards, so between the two actions his entry names a closed handle; with
`ClosesUnnamed` no step of this kind is taken either, and every entry is sound
in every state.
-/

namespace InstanceMessage

open Library

/-- What follows a `closesocket` is the removal of the entry of the user whom the packet names. -/
def ErasesNext (data : Bytes) : Handler Unit → Prop
  | .act (.closesocket _) next => ∃ userId rest,
      StruOfflineRq.readUserId data = some userId ∧ next () = .act (.erase userId) rest
  | _ => True

theorem erasesNext_of_ne {data : Bytes} {action : Action} {next : action.Answer → Handler Unit}
    (other : ∀ socket, action ≠ .closesocket socket) : ErasesNext data (.act action next) := by
  cases action with
  | closesocket socket => exact absurd rfl (other socket)
  | _ => trivial

theorem Quiet.ne_closesocket {action : Action} (quiet : Quiet action) (socket : Handle) :
    action ≠ .closesocket socket := by
  rintro rfl
  exact quiet

theorem removeUser_erasesNext {data : Bytes} {userId : ℤ}
    (readUserId : StruOfflineRq.readUserId data = some userId) :
    (removeUser userId).Everywhere (ErasesNext data) := by
  apply Program.everywhere_perform_bind trivial
  intro (online : Bool)
  cases online with
  | false => trivial
  | true =>
      apply Program.everywhere_perform_bind trivial
      intro socket
      exact Program.everywhere_perform_bind ⟨userId, _, readUserId, rfl⟩
        fun _ => ⟨trivial, fun _ => trivial⟩

theorem dealOfflineRq_erasesNext (data : Bytes) (from_ : Handle) :
    (dealOfflineRq data from_).Everywhere (ErasesNext data) := by
  have passes (action : Action) (next : action.Answer → Handler Unit) (quiet : Quiet action) :
      ErasesNext data (.act action next) := erasesNext_of_ne quiet.ne_closesocket
  cases readUserId : StruOfflineRq.readUserId data with
  | none =>
      simp only [dealOfflineRq, Received.dealOfflineRq, field_of_unread readUserId]
      exact ⟨trivial, fun answer => nomatch answer⟩
  | some userId =>
      simp only [dealOfflineRq, Received.dealOfflineRq, field_of_read readUserId, liftM_handler,
        data_received, Program.bind_ret]
      apply Program.everywhere_bind passes (quiet_sprintfS _ _)
      intro _
      apply Program.everywhere_perform_bind trivial
      intro (found : Option (List Bytes))
      match found with
      | none => trivial
      | some lstStr =>
          exact Program.everywhere_bind passes (quiet_notifyOffline _ _) fun _ =>
            removeUser_erasesNext readUserId

theorem dealData_erasesNext (data : Bytes) (from_ : Handle) :
    (dealData data from_).Everywhere (ErasesNext data) := by
  by_cases offline : packetType data = some defOfflineRq
  · rw [dealData_offlineRq offline]
    exact dealOfflineRq_erasesNext data from_
  · have only : (dealData data from_).Only fun action =>
        ∀ socket, action ≠ .closesocket socket := by
      apply (dealData_lawful data from_ []).only
      intro history action lawful socket same
      subst same
      exact offline lawful.1
    exact only.everywhere (fun _ => trivial) fun action next other => erasesNext_of_ne other

namespace State

/-- The handle is that of an open, listed connection on which the user has logged in. -/
def Sound (state : State) (id : ℤ) (socket : Handle) : Prop :=
  ∃ conn, state.sockets socket = some conn ∧ state.mClients socket = some socket ∧
    state.LoggedInOn conn id

def SessionBound (state : State) : Prop :=
  ∀ id socket, state.mMapIdToSocket id = some socket → state.Sound id socket

/-- A handler is about to remove the entry of the user. -/
def LoggingOff (state : State) (id : ℤ) : Prop :=
  ∃ task ∈ state.tasks, ∃ rest, task.prog = .act (.erase id) rest

/-- Every entry is sound, or names a closed handle and is about to be removed. -/
def BoundOrLeaving (state : State) : Prop :=
  ∀ id socket, state.mMapIdToSocket id = some socket →
    state.Sound id socket ∨ (state.LoggingOff id ∧ state.sockets socket = none)

/-- An action of a handler that leaves no bad entry behind: a login is entered while its
connection is open and listed, a socket is closed only for the user named in the packet, and a
lookup finds an entry. -/
def KeepsEntries (state : State) (task : Task) : Action → Prop
  | .setSocket _ socket =>
      state.sockets socket = some task.conn ∧ state.mClients socket = some socket
  | .closesocket socket => state.sockets socket ≠ none → ∀ id,
      state.mMapIdToSocket id = some socket → StruOfflineRq.readUserId task.data = some id
  | .socketOf id => state.mMapIdToSocket id ≠ none
  | _ => True

/-- A step that leaves no bad entry behind. `closeClient` closes and delists only handles that
no entry names, and `accept` returns none that an entry still names. -/
def KeepsSessions (state : State) : Event → Prop
  | .accept socket => ∀ id, state.mMapIdToSocket id ≠ some socket
  | .closeSocket conn | .eraseClient conn => state.sockets (state.handleOf conn) ≠ none →
      ∀ id, state.mMapIdToSocket id ≠ some (state.handleOf conn)
  | .act index _ => ∀ task action rest, state.tasks[index]? = some task →
      task.prog = .act action rest → state.KeepsEntries task action
  | _ => True

def ClosesUnnamed (state : State) : Event → Prop
  | .act index _ => ∀ task socket rest, state.tasks[index]? = some task →
      task.prog = .act (.closesocket socket) rest → ∀ id, state.mMapIdToSocket id ≠ some socket
  | _ => True

/-! ## One step -/

section Step

variable {state next : State} {event : Event} {id : ℤ} {socket : Handle}

theorem Sound.of_unchanged (sound : state.Sound id socket)
    (sockets : next.sockets socket = state.sockets socket)
    (clients : next.mClients socket = state.mClients socket ∨
      next.mClients socket = some socket) (grows : state.log ⊆ next.log) :
    next.Sound id socket := by
  rcases sound with ⟨conn, isOpen, listed, loggedIn⟩
  refine ⟨conn, sockets.trans isOpen, ?_, loggedIn.mono grows⟩
  rcases clients with same | entered
  · exact same.trans listed
  · exact entered

theorem Sound.isOpen (sound : state.Sound id socket) : state.sockets socket ≠ none := by
  rcases sound with ⟨conn, isOpen, _⟩
  simp [isOpen]

/-- A step that keeps the sessions keeps a sound entry sound, or is the `closesocket` of the
logout of its user. -/
theorem Sound.step (sound : state.Sound id socket)
    (entered : state.mMapIdToSocket id = some socket) (keeps : state.KeepsSessions event)
    (stepped : state.step event = some next) :
    next.Sound id socket ∨ ∃ index outcome task rest, event = .act index outcome ∧
      state.tasks[index]? = some task ∧ task.prog = .act (.closesocket socket) rest ∧
        StruOfflineRq.readUserId task.data = some id ∧ next.sockets socket = none ∧
          { task with prog := rest () } ∈ next.tasks := by
  have grows := log_subset_of_step stepped
  cases stepped_of_step stepped with
  | receive | halt | finish => exact Or.inl (sound.of_unchanged rfl (Or.inl rfl) grows)
  | @accept handle free =>
      have different : socket ≠ handle := fun same => sound.isOpen (same ▸ free)
      refine Or.inl (sound.of_unchanged ?_ (Or.inl rfl) grows)
      simp [State.accept, Function.update_of_ne different]
  | @list conn accepted =>
      refine Or.inl (sound.of_unchanged rfl ?_ grows)
      by_cases same : socket = state.handleOf conn
      · exact Or.inr (by simp [State.list, same])
      · exact Or.inl (by simp [State.list, Function.update_of_ne same])
  | @closeSocket conn receiving =>
      have different : socket ≠ state.handleOf conn := by
        rintro rfl
        exact keeps sound.isOpen id entered
      refine Or.inl (sound.of_unchanged ?_ (Or.inl rfl) grows)
      simp [State.closeSocket, Function.update_of_ne different]
  | @eraseClient conn closing =>
      have different : socket ≠ state.handleOf conn := by
        rintro rfl
        exact keeps sound.isOpen id entered
      refine Or.inl (sound.of_unchanged rfl (Or.inl ?_) grows)
      simp [State.eraseClient, Function.update_of_ne different]
  | @perform index outcome task action rest after answer present shape goesOn performed =>
      have performs := performs_of_perform performed
      rcases performs.sockets socket with same | ⟨rfl, closed⟩
      · have clients : after.mClients socket = state.mClients socket := by
          rw [performs.sameFrame.mClients]
        exact Or.inl (sound.of_unchanged same (Or.inl clients) grows)
      · refine Or.inr ⟨index, outcome, task, rest, rfl, present, shape,
          keeps task _ rest present shape sound.isOpen id entered, closed, ?_⟩
        exact mem_tasks_advance_self performs.sameFrame present

/-- An entry of the map was there before, or has just been written for the connection on which
the user logged in. -/
theorem entry_step (coherent : state.Coherent) (keeps : state.KeepsSessions event)
    (stepped : state.step event = some next)
    (entered : next.mMapIdToSocket id = some socket) :
    state.mMapIdToSocket id = some socket ∨ next.Sound id socket := by
  cases stepped_of_step stepped with
  | accept | list | receive | closeSocket | eraseClient | halt | finish => exact Or.inl entered
  | @perform index outcome task action rest after answer present shape goesOn performed =>
      have performs := performs_of_perform performed
      have member := List.mem_of_getElem? present
      rcases performs.entry entered with old | rfl | ⟨rfl, absent, _⟩
      · exact Or.inl old
      · have lawful := coherent.lawful task member
        rw [shape] at lawful
        rcases lawful.1 with ⟨type, _, matched, _⟩
        rcases keeps task _ rest present shape with ⟨isOpen, listed⟩
        cases performs
        exact Or.inr ⟨task.conn, isOpen, listed,
          (loggedInOn_of_matched coherent member type matched).mono
            (log_subset_of_step stepped)⟩
      · exact absurd absent (keeps task _ rest present shape)

/-- A handler that is about to remove an entry stays so until it has removed it. -/
theorem LoggingOff.step (leaving : state.LoggingOff id) (stepped : state.step event = some next)
    (running : next.halted = false) : next.LoggingOff id ∨ next.mMapIdToSocket id = none := by
  rcases leaving with ⟨task, member, rest, shape⟩
  cases stepped_of_step stepped with
  | accept | list | closeSocket | eraseClient => exact Or.inl ⟨task, member, rest, shape⟩
  | receive => exact Or.inl ⟨task, List.mem_append_left _ member, rest, shape⟩
  | halt => simp [State.halt] at running
  | @finish index returning present returned =>
      rcases List.mem_iff_getElem?.mp member with ⟨position, found⟩
      have elsewhere : position ≠ index := by
        rintro rfl
        rw [present] at found
        rw [Option.some.inj found, shape] at returned
        simp at returned
      refine Or.inl ⟨task, ?_, rest, shape⟩
      exact List.mem_eraseIdx_iff_getElem?.mpr ⟨position, elsewhere, found⟩
  | @perform index outcome acting action following after answer present acts goesOn performed =>
      have performs := performs_of_perform performed
      rcases List.mem_iff_getElem?.mp member with ⟨position, found⟩
      by_cases same : index = position
      · subst same
        rw [present] at found
        rcases Option.some.inj found with rfl
        rw [shape] at acts
        injection acts with sameAction _
        subst sameAction
        cases performs
        exact Or.inr (by simp [advance])
      · exact Or.inl ⟨task, mem_tasks_advance_of_ne performs.sameFrame same found, rest, shape⟩

theorem closed_step (closed : state.sockets socket = none)
    (entered : state.mMapIdToSocket id = some socket) (keeps : state.KeepsSessions event)
    (stepped : state.step event = some next) : next.sockets socket = none := by
  cases stepped_of_step stepped with
  | list | receive | eraseClient | halt | finish => exact closed
  | @accept handle free =>
      have different : socket ≠ handle := by
        rintro rfl
        exact keeps id entered
      simpa [State.accept, Function.update_of_ne different] using closed
  | @closeSocket conn receiving =>
      by_cases same : socket = state.handleOf conn
      · simp [State.closeSocket, same]
      · simpa [State.closeSocket, Function.update_of_ne same] using closed
  | perform present shape goesOn performed =>
      rcases (performs_of_perform performed).sockets socket with same | ⟨_, gone⟩
      · exact same.trans closed
      · exact gone

theorem BoundOrLeaving.step (bound : state.BoundOrLeaving) (coherent : state.Coherent)
    (erases : ∀ task ∈ state.tasks, task.prog.Everywhere (ErasesNext task.data))
    (keeps : state.KeepsSessions event) (stepped : state.step event = some next)
    (running : next.halted = false) : next.BoundOrLeaving := by
  intro id socket entered
  rcases entry_step coherent keeps stepped entered with old | sound
  · rcases bound id socket old with sound | ⟨leaving, closed⟩
    · rcases sound.step old keeps stepped with still |
        ⟨index, outcome, task, rest, _, present, shape, readUserId, closed, member⟩
      · exact Or.inl still
      · have here := (erases task (List.mem_of_getElem? present)).here
        rw [shape] at here
        rcases here with ⟨userId, following, named, erasing⟩
        have same : userId = id := Option.some.inj (named.symm.trans readUserId)
        subst same
        exact Or.inr ⟨⟨_, member, following, erasing⟩, closed⟩
    · refine Or.inr ⟨?_, closed_step closed old keeps stepped⟩
      rcases leaving.step stepped running with still | gone
      · exact still
      · simp [gone] at entered
  · exact Or.inl sound

theorem SessionBound.step (bound : state.SessionBound) (coherent : state.Coherent)
    (keeps : state.KeepsSessions event) (unnamed : state.ClosesUnnamed event)
    (stepped : state.step event = some next) : next.SessionBound := by
  intro id socket entered
  rcases entry_step coherent keeps stepped entered with old | sound
  · rcases (bound id socket old).step old keeps stepped with still |
      ⟨index, outcome, task, rest, rfl, present, shape, _⟩
    · exact still
    · exact absurd old (unnamed task socket rest present shape id)
  · exact sound

end Step

/-! ## Every run -/

section Run

variable {tUser : List UserRow} {tFriend : List (ℤ × ℤ)} {events : List Event} {final : State}

theorem erasesNext_step {state next : State} {event : Event}
    (erases : ∀ task ∈ state.tasks, task.prog.Everywhere (ErasesNext task.data))
    (stepped : state.step event = some next) :
    ∀ task ∈ next.tasks, task.prog.Everywhere (ErasesNext task.data) :=
  programs_step (fun data from_ => dealData_erasesNext data from_)
    (fun _ _ _ _ answer everywhere => everywhere.2 answer) erases stepped

/-- Session binding. In a run that keeps the sessions, every entry of the map names a connection
on which the user has logged in, except that the user's own logout closes his socket before it
removes the entry; if no named socket is closed in this way, there is no exception. -/
theorem session_binding (reached : server.run (start tUser tFriend) events = some final) :
    (server.Meets (fun state event => state.KeepsSessions event ∧ state.ClosesUnnamed event)
        (start tUser tFriend) events → final.SessionBound) ∧
      (server.Meets KeepsSessions (start tUser tFriend) events →
        final.halted = false → final.BoundOrLeaving) := by
  constructor
  · intro meets
    refine (server.run_invariant
      (fun state => state.Coherent ∧ state.SessionBound) ?_
      ⟨coherent_start _ _, by simp [start, SessionBound]⟩ meets reached).2
    intro state event next holds keeps stepped
    exact ⟨holds.1.step stepped, holds.2.step holds.1 keeps.1 keeps.2 stepped⟩
  · intro meets running
    refine (server.run_invariant (fun state => state.Coherent ∧
      (∀ task ∈ state.tasks, task.prog.Everywhere (ErasesNext task.data)) ∧
        (state.halted = false → state.BoundOrLeaving)) ?_
      ⟨coherent_start _ _, by simp [start], by simp [start, BoundOrLeaving]⟩ meets reached).2.2
        running
    intro state event next holds keeps stepped
    rcases holds with ⟨coherent, erases, bound⟩
    exact ⟨coherent.step stepped, erasesNext_step erases stepped, fun running =>
      (bound (not_halted_of_step stepped)).step coherent erases keeps stepped running⟩

end Run

/-! ## A login, and a disconnect after it -/

def strangerArrives : List Event := [.closeSocket 0, .eraseClient 0, .accept 4, .list 1]

/-- The conditions of session binding, for a step of a server on which nobody logs off. -/
def keepsQuietly (state : State) : Event → Bool
  | .accept _ | .closeSocket _ | .eraseClient _ => false
  | .act index _ =>
      match state.tasks[index]? with
      | some task =>
          match task.prog with
          | .act (.setSocket _ socket) _ =>
              state.sockets socket = some task.conn ∧ state.mClients socket = some socket
          | .act (.closesocket _) _ => false
          | .act (.socketOf id) _ => (state.mMapIdToSocket id).isSome
          | _ => true
      | none => true
  | _ => true

theorem keepsQuietly_sound (state : State) (event : Event)
    (passed : state.keepsQuietly event = true) :
    state.KeepsSessions event ∧ state.ClosesUnnamed event := by
  cases event with
  | accept | closeSocket | eraseClient => simp [keepsQuietly] at passed
  | list | receive | finish => exact ⟨trivial, trivial⟩
  | act index outcome =>
      constructor
      · intro task action rest present shape
        simp only [keepsQuietly, present, shape] at passed
        cases action with
        | setSocket id socket => simpa [KeepsEntries] using passed
        | closesocket socket => simp at passed
        | socketOf id => simpa [KeepsEntries, Option.isSome_iff_ne_none] using passed
        | _ => trivial
      · intro task socket rest present shape
        simp [keepsQuietly, present, shape] at passed

theorem session_binding_login : ∃ final,
    server.run (start [alice] []) (logsIn alice 0 4) = some final ∧
      final.mMapIdToSocket 1 = some 4 ∧ final.SessionBound := by
  have evaluated : (server.run (start [alice] []) (logsIn alice 0 4)).any (fun final =>
      final.mMapIdToSocket 1 = some 4) = true := by
    decide +kernel
  have passed : server.allSteps keepsQuietly ((start [alice] []).accept 4)
      (logsIn alice 0 4).tail = true := by
    decide +kernel
  rcases (Option.any_eq_true _ _).mp evaluated with ⟨final, reached, entered⟩
  refine ⟨final, reached, by simpa using entered, (session_binding reached).1 ⟨?_, ?_⟩⟩
  · exact ⟨by simp [KeepsSessions, start], trivial⟩
  · intro next stepped
    have same : (start [alice] []).accept 4 = next := Option.some.inj stepped
    subst same
    exact server.meets_of_allSteps keepsQuietly_sound passed

/-- After a disconnect the entry of the user names the connection of whoever comes next. -/
theorem session_binding_fails : ∃ final,
    server.run (start [alice] []) (logsIn alice 0 4 ++ strangerArrives) = some final ∧
      ¬final.SessionBound := by
  have evaluated : (server.run (start [alice] []) (logsIn alice 0 4 ++ strangerArrives)).any
      (fun final => final.mMapIdToSocket 1 = some 4 ∧ final.sockets 4 = some 1 ∧
        final.log.all (fun entry => entry.conn ≠ 1)) = true := by
    decide +kernel
  rcases (Option.any_eq_true _ _).mp evaluated with ⟨final, reached, shape⟩
  simp only [decide_eq_true_eq, List.all_eq_true] at shape
  rcases shape with ⟨entered, isOpen, nobody⟩
  refine ⟨final, reached, fun bound => ?_⟩
  rcases bound 1 4 entered with ⟨conn, current, _, entry, logged, onConn, _⟩
  have same : 1 = conn := Option.some.inj (isOpen.symm.trans current)
  subst same
  exact nobody entry logged onConn

end State

end InstanceMessage
