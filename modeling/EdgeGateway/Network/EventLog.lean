-- The log of `network_admin`: what the messages ask for, what the cache has and what a table
-- makes of the `NetworkChanged` events. A message is compared with the cache before anything
-- is done, so the three never part.
import EdgeGateway.Network.Logic

namespace EdgeGateway.Networks

open EdgeGateway.Lib EdgeGateway.Message EdgeGateway.Database

/-! ## The fold of the messages -/

/-- What the messages ask for, by the network that each is about. -/
def networkMessages : Changes String Bool NetworkMsg where
  key := NetworkMsg.idNetwork
  effect := fun network _ => if network.deleteNetwork then none else some network.active

/-- The cache after the messages, and the events sent on the way. -/
def administer (idEdge : String) (m : NetworkManager) :
    List (Int64 × NetworkMsg) → NetworkManager × List NetworkChanged
  | [] => (m, [])
  | (now, network) :: rest =>
    let d := adminServer idEdge now m (.network network)
    let out := administer idEdge d.manager rest
    (out.1, d.netChan ++ out.2)

/-! ## The table -/

/-- The statement of an event. Only `INSERT` can meet a key that is taken. -/
def NetworkChanged.execute (t : Keyed NetworkRow.idNetwork) :
    NetworkChanged → Option (Keyed NetworkRow.idNetwork)
  | .insert row => t.insert row
  | .update row => some (t.upsert row)
  | .delete id => some (t.deleteWhere (fun row => row.idNetwork = id))

/-- The statements of a log in order, as long as none meets a taken key. -/
def executeAll (t : Keyed NetworkRow.idNetwork) (log : List NetworkChanged) :
    Option (Keyed NetworkRow.idNetwork) :=
  log.foldlM NetworkChanged.execute t

/-- What a table says about a network. -/
def storedActive (t : Keyed NetworkRow.idNetwork) (id : String) : Option Bool :=
  (t.get id).map NetworkRow.active

/-- The tasks of the database execute an event as this. -/
theorem dbaInsert_execute (t : Tables) (row : NetworkRow) :
    (dbaInsert t (.insertNetwork row)).1.network =
        ((NetworkChanged.insert row).execute t.network).getD t.network ∧
      some (dbaInsert t (.updateNetwork row)).1.network =
        (NetworkChanged.update row).execute t.network ∧
      some (dbaRemove t (.deleteNetwork row.idNetwork)).1.network =
        (NetworkChanged.delete row.idNetwork).execute t.network := by
  refine ⟨?_, rfl, rfl⟩
  rcases hinsert : t.network.insert row with _ | network <;>
    simp [dbaInsert, NetworkChanged.execute, hinsert]

/-- The event meets no taken key: what it inserts is not there. -/
def NetworkChanged.free (c : NetworkChanged) (active : String → Option Bool) : Prop :=
  ∀ row, c = .insert row → active row.idNetwork = none

theorem execute_spec {t : Keyed NetworkRow.idNetwork} {c : NetworkChanged}
    (h : c.free (storedActive t)) :
    ∃ t', c.execute t = some t' ∧
      ∀ id, storedActive t' id = networkChanges.apply id (storedActive t id) c := by
  cases c with
  | insert row =>
    have hfree : t.get row.idNetwork = none := Option.map_eq_none_iff.mp (h row rfl)
    rcases ht : t.insert row with _ | t'
    · exact absurd hfree (Keyed.insert_eq_none.mp ht)
    · refine ⟨t', ht, fun id => ?_⟩
      rw [apply_insert, storedActive, Keyed.get_insert ht, storedActive]
      by_cases hid : row.idNetwork = id
      · subst hid
        simp [hfree]
      · simp [hid]
  | update row =>
    refine ⟨_, rfl, fun id => ?_⟩
    rw [apply_update, storedActive, Keyed.get_upsert, storedActive]
    by_cases hid : row.idNetwork = id <;> simp [hid]
  | delete id₀ =>
    refine ⟨_, rfl, fun id => ?_⟩
    rw [apply_delete, storedActive, Keyed.get_deleteWhere_key, storedActive]
    by_cases hid : id₀ = id <;> simp [hid]

/-! ## One message -/

section Message

variable {idEdge : String} {now : Int64} {m : NetworkManager} {network : NetworkMsg}

/-- The message asks for what the cache has. -/
def Satisfied (m : NetworkManager) (network : NetworkMsg) : Prop :=
  m.activeOf network.idNetwork = if network.deleteNetwork then none else some network.active

/-- A message that asks for what is there is ignored, and any other is carried out and sent as
one event. -/
theorem adminServer_network (idEdge : String) (now : Int64) (m : NetworkManager)
    (network : NetworkMsg) :
    (Satisfied m network ∧ adminServer idEdge now m (.network network) = { manager := m }) ∨
    (¬ Satisfied m network ∧ ∃ c : NetworkChanged, c.free m.activeOf ∧
      (adminServer idEdge now m (.network network)).makes m c ∧
      networkChanges.apply network.idNetwork (m.activeOf network.idNetwork) c =
        (if network.deleteNetwork then none else some network.active) ∧
      c.id = network.idNetwork) := by
  have hmakes : ∀ c, (adminServer idEdge now m (.network network)).netChan = [c] →
      (adminServer idEdge now m (.network network)).makes m c := by
    intro c hc
    rcases adminServer_spec idEdge now m (.network network) with hkeeps | ⟨c', hmakes⟩
    · rw [hkeeps.1] at hc
      cases hc
    · obtain rfl := List.singleton_inj.mp (hmakes.1.symm.trans hc)
      exact hmakes
  unfold Satisfied NetworkManager.activeOf
  rcases hl : m.networks.lookup network.idNetwork with _ | existing <;>
    rcases hd : network.deleteNetwork with _ | _
  · refine Or.inr ⟨by simp, .insert ⟨network.idNetwork, network.active⟩, ?_, hmakes _ ?_, ?_, rfl⟩
    · rintro row ⟨⟩
      simp [hl]
    · simp [adminServer, actionOf, handleAction, hl, hd]
    · simp
  · exact Or.inl ⟨by simp, by simp [adminServer, actionOf, handleAction, hl, hd]⟩
  · by_cases ha : existing.active = network.active
    · exact Or.inl ⟨by simp [ha], by simp [adminServer, actionOf, handleAction, hl, hd, ha]⟩
    · refine Or.inr ⟨by simpa using ha, .update ⟨network.idNetwork, network.active⟩, ?_,
        hmakes _ ?_, ?_, rfl⟩
      · rintro row ⟨⟩
      · simp [adminServer, actionOf, handleAction, hl, hd, ha]
      · simp
  · refine Or.inr ⟨by simp, .delete network.idNetwork, ?_, hmakes _ ?_, ?_, rfl⟩
    · rintro row ⟨⟩
    · simp [adminServer, actionOf, handleAction, hl, hd]
    · simp

/-- The cache then has what the message asks for. -/
theorem activeOf_adminServer (idEdge : String) (now : Int64) (m : NetworkManager)
    (network : NetworkMsg) (id : String) :
    (adminServer idEdge now m (.network network)).manager.activeOf id =
      networkMessages.apply id (m.activeOf id) network := by
  rcases adminServer_network idEdge now m network with
    ⟨hsatisfied, hd⟩ | ⟨-, c, -, ⟨-, hmade⟩, hasked, hid⟩
  · rw [hd]
    by_cases h : network.idNetwork = id
    · subst h
      exact hsatisfied.trans (networkMessages.apply_self network _).symm
    · exact (networkMessages.apply_other h _).symm
  · rw [hmade id]
    by_cases h : network.idNetwork = id
    · subst h
      exact hasked.trans (networkMessages.apply_self network _).symm
    · have hother : c.id ≠ id := hid ▸ h
      rw [networkChanges.apply_other hother, networkMessages.apply_other h]

/-- No event is sent exactly when the message changes nothing. -/
theorem netChan_eq_nil (idEdge : String) (now : Int64) (m : NetworkManager)
    (network : NetworkMsg) :
    (adminServer idEdge now m (.network network)).netChan = [] ↔
      ∀ id, (adminServer idEdge now m (.network network)).manager.activeOf id =
        m.activeOf id := by
  rcases adminServer_network idEdge now m network with
    ⟨-, hd⟩ | ⟨hnot, c, -, ⟨hchan, -⟩, -, -⟩
  · rw [hd]
    simp
  · refine iff_of_false (by simp [hchan]) (fun hsame => hnot ?_)
    have hnow := activeOf_adminServer idEdge now m network network.idNetwork
    rw [hsame] at hnow
    exact hnow.trans (networkMessages.apply_self network _)

end Message

/-! ## The law -/

/-- The cache follows the messages, and the table follows the cache. -/
theorem administer_spec (idEdge : String) (msgs : List (Int64 × NetworkMsg)) {m : NetworkManager}
    {t : Keyed NetworkRow.idNetwork} (hagree : ∀ id, storedActive t id = m.activeOf id) :
    (∀ id, (administer idEdge m msgs).1.activeOf id =
      networkMessages.replay id (m.activeOf id) (msgs.map Prod.snd)) ∧
    ∃ t', executeAll t (administer idEdge m msgs).2 = some t' ∧
      ∀ id, storedActive t' id = (administer idEdge m msgs).1.activeOf id := by
  induction msgs generalizing m t with
  | nil => exact ⟨fun _ => rfl, t, rfl, hagree⟩
  | cons msg rest ih =>
    obtain ⟨now, network⟩ := msg
    have hone : ∃ t₁, executeAll t (adminServer idEdge now m (.network network)).netChan =
        some t₁ ∧ ∀ id, storedActive t₁ id =
          (adminServer idEdge now m (.network network)).manager.activeOf id := by
      rcases adminServer_network idEdge now m network with
        ⟨-, hd⟩ | ⟨-, c, hfree, ⟨hchan, hmade⟩, -, -⟩
      · rw [hd]
        exact ⟨t, rfl, hagree⟩
      · obtain ⟨t₁, ht₁, hstored⟩ :=
          execute_spec (t := t) (c := c) (funext hagree ▸ hfree)
        refine ⟨t₁, by rw [hchan]; simpa [executeAll] using ht₁, fun id => ?_⟩
        rw [hstored, hmade, hagree]
    obtain ⟨t₁, ht₁, hagree₁⟩ := hone
    obtain ⟨hcache, t', ht', hagree'⟩ := ih hagree₁
    refine ⟨fun id => ?_, t', ?_, hagree'⟩
    · rw [List.map_cons, Changes.replay_cons, ← activeOf_adminServer idEdge now m network id]
      exact hcache id
    · show executeAll t (_ ++ _) = some t'
      rw [executeAll, List.foldlM_append]
      show (executeAll t _ >>= fun t => executeAll t _) = some t'
      rw [ht₁]
      exact ht'

/-- The cache is the fold of the messages; a table that agrees with it executes the events
without meeting a taken key and agrees with it afterwards; and a message that changes nothing
sends no event. -/
theorem the_event_log_replays_to_the_cache (idEdge : String) (m : NetworkManager)
    (t : Keyed NetworkRow.idNetwork) (hagree : ∀ id, storedActive t id = m.activeOf id)
    (msgs : List (Int64 × NetworkMsg)) :
    (∀ id, (administer idEdge m msgs).1.activeOf id =
      networkMessages.replay id (m.activeOf id) (msgs.map Prod.snd)) ∧
    (∃ t', executeAll t (administer idEdge m msgs).2 = some t' ∧
      ∀ id, storedActive t' id = (administer idEdge m msgs).1.activeOf id) ∧
    ∀ (m : NetworkManager) (now : Int64) (network : NetworkMsg),
      (adminServer idEdge now m (.network network)).netChan = [] ↔
        ∀ id, (adminServer idEdge now m (.network network)).manager.activeOf id =
          m.activeOf id := by
  obtain ⟨hcache, htable⟩ := administer_spec idEdge msgs hagree
  exact ⟨hcache, htable, fun m now network => netChan_eq_nil idEdge now m network⟩

/-- Contradictory commands about a network that nobody knows at first. -/
def contradictoryMsgs : List (Int64 × NetworkMsg) :=
  [(1, ⟨default, "a", "", true, true⟩), (2, ⟨default, "a", "", true, false⟩),
    (3, ⟨default, "a", "", true, false⟩), (4, ⟨default, "a", "", false, false⟩)]

theorem a_contradictory_log_replays :
    (administer "edge" (.newEmpty "edge") contradictoryMsgs).1.activeOf "a" = some false ∧
      ∃ t', executeAll .empty (administer "edge" (.newEmpty "edge") contradictoryMsgs).2 =
          some t' ∧
        ∀ id, storedActive t' id =
          (administer "edge" (.newEmpty "edge") contradictoryMsgs).1.activeOf id := by
  have h := the_event_log_replays_to_the_cache "edge" (.newEmpty "edge") .empty
    (fun id => rfl) contradictoryMsgs
  exact ⟨(h.1 "a").trans (by decide), h.2.1⟩

end EdgeGateway.Networks
