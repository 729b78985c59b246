-- The calls of the MQTT client to the broker, beside the map that tracks them. The map is
-- changed when a call succeeds and never else, so it says what the last one that succeeded was.
import EdgeGateway.Lib.Replay
import EdgeGateway.Mqtt.Subscriptions

namespace EdgeGateway.Mqtt

open EdgeGateway.Lib EdgeGateway.Networks

/-! ## The calls -/

inductive CallKind where
  | subscribe
  | unsubscribe
  deriving Repr, DecidableEq

/-- A call of the client, and whether it succeeded. -/
structure ClientCall where
  topic : String
  kind : CallKind
  ok : Bool
  deriving Repr, DecidableEq

/-- The last call about a topic that succeeded. -/
def lastCalls : Changes String CallKind ClientCall where
  key := ClientCall.topic
  effect := fun call last => if call.ok then some call.kind else last

/-- The calls of one kind for a list of topics. -/
def clientCalls (kind : CallKind) (ok : String → Bool) (l : List String) : List ClientCall :=
  l.map (fun topic => ⟨topic, kind, ok topic⟩)

/-- The calls of a fresh connection. -/
def connectCalls (m : NetworkManager) (calls : Calls) : List ClientCall :=
  clientCalls .subscribe calls.subscribe (collectSubscriptions m).keys

/-- The calls of an update. -/
def updateCalls (m : NetworkManager) (calls : Calls) (subs : Subs) : List ClientCall :=
  clientCalls .subscribe calls.subscribe (toSub (mark m subs)) ++
    clientCalls .unsubscribe calls.unsubscribe (toUnsub (mark m subs))

/-- The map of a client at work, and all calls of its connection. -/
structure Tracked where
  subs : Subs
  log : List ClientCall

def Tracked.update (s : Tracked) (m : NetworkManager) (calls : Calls) : Tracked :=
  ⟨updateSubscriptions m calls s.subs, s.log ++ updateCalls m calls s.subs⟩

def Tracked.updates (s : Tracked) (updates : List (NetworkManager × Calls)) : Tracked :=
  updates.foldl (fun s u => s.update u.1 u.2) s

/-! ## One update -/

/-- The entry of the topic says that it is subscribed. -/
def Subscribed (subs : Subs) (topic : String) : Prop :=
  ∃ e, subs.lookup topic = some e ∧ e.subscribed = true

/-- A topology has the topic. -/
def Wanted (m : NetworkManager) (topic : String) : Prop := ∃ t ∈ topics m, t.topic = topic

section Update

variable {m : NetworkManager} {calls : Calls} {subs : Subs} {topic : String}

theorem subscribed_iff (subs : Subs) (topic : String) :
    Subscribed subs topic ↔ (subs.lookup topic).elim False (fun e => e.subscribed = true) := by
  unfold Subscribed
  cases subs.lookup topic <;> simp

/-- The marks say what the topology wants, and the rest of the entries stays. -/
theorem mark_spec (m : NetworkManager) (subs : Subs) (topic : String) :
    (¬ Wanted m topic ∧ (mark m subs).lookup topic = none ∧ subs.lookup topic = none) ∨
      ∃ e, (mark m subs).lookup topic = some e ∧ (e.active = true ↔ Wanted m topic) ∧
        (e.subscribed = true ↔ Subscribed subs topic) := by
  by_cases hwanted : Wanted m topic
  · right
    have hreach := local_allTopics.foldl_reaches
      (P := fun o => o.elim False (fun e => e.subscribed = true) ↔ Subscribed subs topic)
      (Q := fun o => ∃ e, o = some e ∧ e.active = true ∧
        (e.subscribed = true ↔ Subscribed subs topic))
      ?_ ?_ hwanted (m := Assoc.mapValues (fun entry => { entry with active := false }) subs) ?_
    · obtain ⟨e, he, hactive, hsubscribed⟩ := hreach
      exact ⟨e, he, by simp [hactive, hwanted], hsubscribed⟩
    · intro t _ _ o ho
      cases o with
      | none => exact ⟨⟨true, false, castQos t.qos⟩, rfl, rfl, by simpa using ho⟩
      | some e => exact ⟨{ e with active := true }, rfl, rfl, ho⟩
    · rintro o ⟨e, rfl, -, he⟩
      exact he
    · rw [Assoc.lookup_mapValues, subscribed_iff]
      cases subs.lookup topic <;> simp
  · have hnot : ∀ t ∈ topics m, t.topic ≠ topic := fun t ht heq => hwanted ⟨t, ht, heq⟩
    rw [lookup_mark_of_notMem hnot, subscribed_iff]
    rcases subs.lookup topic with _ | e
    · exact .inl ⟨hwanted, rfl, rfl⟩
    · exact .inr ⟨{ e with active := false }, rfl, by simp [hwanted], by simp⟩

theorem replay_clientCalls (kind : CallKind) (ok : String → Bool) (l : List String) (topic : String)
    (last : Option CallKind) :
    lastCalls.replay topic last (clientCalls kind ok l) =
      if topic ∈ l ∧ ok topic = true then some kind else last := by
  have hidem : ∀ k value,
      lastCalls.effect ⟨k, kind, ok k⟩ (lastCalls.effect ⟨k, kind, ok k⟩ value) =
      lastCalls.effect ⟨k, kind, ok k⟩ value := by
    intro k value
    simp only [lastCalls]
    split <;> rfl
  unfold clientCalls
  rw [lastCalls.replay_map (fun _ => rfl) hidem]
  by_cases hl : topic ∈ l <;> simp [hl, lastCalls]

/-- The map and the calls of an update change together. -/
theorem tracked_update (m : NetworkManager) (calls : Calls) {subs : Subs} {topic : String}
    {last : Option CallKind} (h : Subscribed subs topic ↔ last = some .subscribe) :
    Subscribed (updateSubscriptions m calls subs) topic ↔
      lastCalls.replay topic last (updateCalls m calls subs) = some .subscribe := by
  unfold updateSubscriptions updateCalls
  rw [subscribed_iff, lookup_sweep, lastCalls.replay_append, replay_clientCalls,
    replay_clientCalls]
  simp only [mem_toSub, mem_toUnsub]
  rcases mark_spec m subs topic with ⟨-, hnone, hsubs⟩ | ⟨e, he, -, hsubscribed⟩
  · have hnot : ¬ Subscribed subs topic := by
      rw [subscribed_iff, hsubs]
      exact fun hfalse => hfalse
    simpa [hnone] using fun hlast => hnot (h.mpr hlast)
  · rw [← hsubscribed] at h
    obtain ⟨active, subscribed, qos⟩ := e
    cases active <;> cases subscribed <;> cases hs : calls.subscribe topic <;>
      cases hu : calls.unsubscribe topic <;> simp_all [swept]

/-- What a call for the broker did not do is left for the next update, and what it did is not
asked for again. -/
theorem subscribed_update {m : NetworkManager} {calls : Calls} {subs : Subs}
    (hok : ∀ call ∈ updateCalls m calls subs, call.ok = true) (topic : String) :
    Subscribed (updateSubscriptions m calls subs) topic ↔ Wanted m topic := by
  have hsub : topic ∈ toSub (mark m subs) → calls.subscribe topic = true := fun hmem =>
    hok ⟨topic, .subscribe, calls.subscribe topic⟩
      (List.mem_append_left _ (List.mem_map_of_mem hmem))
  have hunsub : topic ∈ toUnsub (mark m subs) → calls.unsubscribe topic = true := fun hmem =>
    hok ⟨topic, .unsubscribe, calls.unsubscribe topic⟩
      (List.mem_append_right _ (List.mem_map_of_mem hmem))
  unfold updateSubscriptions
  rw [mem_toSub] at hsub
  rw [mem_toUnsub] at hunsub
  rw [subscribed_iff, lookup_sweep]
  rcases mark_spec m subs topic with ⟨hnot, hnone, -⟩ | ⟨e, he, hactive, -⟩
  · simp [hnone, hnot]
  · rw [← hactive]
    obtain ⟨active, subscribed, qos⟩ := e
    cases active <;> cases subscribed <;> simp_all [swept]

end Update

/-! ## The law -/

/-- The map says of each topic what the last call that succeeded was. -/
def Tracked.Exact (s : Tracked) : Prop :=
  ∀ topic, Subscribed s.subs topic ↔ lastCalls.replay topic none s.log = some .subscribe

theorem exact_update {s : Tracked} (h : s.Exact) (m : NetworkManager) (calls : Calls) :
    (s.update m calls).Exact := by
  intro topic
  unfold Tracked.update
  rw [lastCalls.replay_append]
  exact tracked_update m calls (h topic)

theorem exact_updates {s : Tracked} (h : s.Exact) (updates : List (NetworkManager × Calls)) :
    (s.updates updates).Exact := by
  induction updates generalizing s with
  | nil => exact h
  | cons u updates ih => exact ih (exact_update h u.1 u.2)

theorem subscribed_collect (m : NetworkManager) {topic : String} {e : SubEntry}
    (h : (collectSubscriptions m).lookup topic = some e) : e.subscribed = true := by
  have hall : ∀ (l : List Topic) (subs : Subs),
      (∀ topic e, subs.lookup topic = some e → e.subscribed = true) → ∀ topic e,
      (l.foldl (fun subs t => subs.insert t.topic ⟨true, true, castQos t.qos⟩) subs).lookup topic =
        some e → e.subscribed = true := by
    intro l
    induction l with
    | nil => exact fun subs hsubs => hsubs
    | cons t l ih =>
      intro subs hsubs
      refine ih _ (fun topic e he => ?_)
      by_cases ht : topic = t.topic
      · subst ht
        rw [AList.lookup_insert] at he
        cases he
        rfl
      · rw [AList.lookup_insert_ne ht] at he
        exact hsubs topic e he
  refine hall (topics m) _ (fun topic e he => ?_) topic e h
  by_cases ht : topic = m.topicLinkageRequest.topic
  · subst ht
    rw [AList.lookup_insert] at he
    cases he
    rfl
  · rw [AList.lookup_insert_ne ht, AList.lookup_empty] at he
    cases he

/-- A client is at work when all its calls succeeded. -/
theorem exact_connect {m : NetworkManager} {certificates : Bool} {calls : Calls} {subs : Subs}
    (h : StateClient.connect m certificates calls .init = some (.work subs)) :
    Tracked.Exact ⟨subs, connectCalls m calls⟩ := by
  intro topic
  simp only [StateClient.connect, Option.some.injEq] at h
  split at h
  · rename_i hall
    cases h
    rw [Bool.and_eq_true, List.all_eq_true] at hall
    unfold connectCalls
    rw [replay_clientCalls]
    by_cases hmem : topic ∈ (collectSubscriptions m).keys
    · obtain ⟨e, he⟩ :=
        Option.isSome_iff_exists.mp (AList.lookup_isSome.mpr (AList.mem_keys.mpr hmem))
      rw [if_pos ⟨hmem, hall.2 topic hmem⟩]
      exact iff_of_true ⟨e, he, subscribed_collect m he⟩ rfl
    · rw [if_neg (fun hand => hmem hand.1)]
      refine iff_of_false ?_ (by simp)
      rintro ⟨e, he, -⟩
      exact hmem (AList.mem_keys.mp (AList.lookup_isSome.mp (by simp [he])))
  · cases h

/-- A topic of a network is wanted exactly when the network is there. -/
theorem wanted_inbound {idEdge : String} {m : NetworkManager} (hm : m.Formed idEdge) {id : String}
    {active : Bool} {t : Topic} (ht : t ∈ (Network.new id active).inbound) :
    Wanted m t.topic ↔ id ∈ m.networks := by
  constructor
  · rintro ⟨t', ht', heq⟩
    obtain ⟨e, he, hin⟩ := List.mem_flatMap.mp ht'
    have hlookup : m.networks.lookup e.1 = some e.2 := AList.mem_lookup_iff.mpr he
    rw [hm.networks e.1 e.2 hlookup] at hin
    rw [← inbound_network hin ht heq]
    exact AList.lookup_isSome.mp (by simp [hlookup])
  · intro hid
    obtain ⟨network, hlookup⟩ := Option.isSome_iff_exists.mp (AList.lookup_isSome.mpr hid)
    refine ⟨t, List.mem_flatMap.mpr ⟨⟨id, network⟩, AList.mem_lookup_iff.mp hlookup, ?_⟩, rfl⟩
    have hnew := hm.networks id network hlookup
    show t ∈ network.inbound
    rw [hnew]
    exact ht

/-- Whatever calls fail, the map says which topics the broker was last told to send; and when
no call of an update fails, these are the topics of the networks that are there. -/
theorem the_map_tracks_the_calls (m₀ : NetworkManager) (certificates : Bool) (calls₀ : Calls)
    (subs₀ : Subs)
    (hconnect : StateClient.connect m₀ certificates calls₀ .init = some (.work subs₀))
    (updates : List (NetworkManager × Calls)) :
    let s := Tracked.updates ⟨subs₀, connectCalls m₀ calls₀⟩ updates
    (∀ topic, Subscribed s.subs topic ↔ lastCalls.replay topic none s.log = some .subscribe) ∧
      ∀ (m : NetworkManager) (calls : Calls),
        (∀ call ∈ updateCalls m calls s.subs, call.ok = true) →
        (∀ topic, Subscribed (s.update m calls).subs topic ↔
          ∃ t ∈ topics m, t.topic = topic) ∧
        ∀ idEdge, m.Formed idEdge → ∀ (id : String) (active : Bool),
          ∀ t ∈ (Network.new id active).inbound,
            (Subscribed (s.update m calls).subs t.topic ↔ id ∈ m.networks) := by
  refine ⟨exact_updates (exact_connect hconnect) updates, fun m calls hok => ?_⟩
  refine ⟨subscribed_update hok, fun idEdge hm id active t ht => ?_⟩
  rw [← wanted_inbound hm ht]
  exact subscribed_update hok t.topic

/-- The broker takes no call. -/
def Calls.fail : Calls := ⟨fun _ => false, fun _ => false⟩

theorem ok_succeed (m : NetworkManager) (subs : Subs) :
    ∀ call ∈ updateCalls m .succeed subs, call.ok = true := by
  intro call hcall
  rcases List.mem_append.mp hcall with hcall | hcall <;>
    obtain ⟨topic, -, rfl⟩ := List.mem_map.mp hcall <;> rfl

/-- A network comes while the broker takes no call, and the next update makes up for it. -/
theorem the_next_update_makes_up :
    let m := (NetworkManager.newEmpty "edge").addNetwork (Network.new "n" true)
    let s := Tracked.updates
      ⟨collectSubscriptions (.newEmpty "edge"), connectCalls (.newEmpty "edge") .succeed⟩
      [(m, .fail)]
    Subscribed (s.update m .succeed).subs (Network.new "n" true).topicData.topic ↔
      "n" ∈ m.networks :=
  ((the_map_tracks_the_calls (.newEmpty "edge") true .succeed _ rfl _).2 _ .succeed
    (ok_succeed _ _)).2 "edge" (formed_addNetwork (formed_newEmpty "edge") "n" true) "n" true
    (Network.new "n" true).topicData (by simp [Network.inbound])

end EdgeGateway.Mqtt
