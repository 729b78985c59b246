-- The subscriptions of the MQTT client. A fresh connection collects all topics;
-- a change of the topology marks the topics that are wanted and sweeps the
-- others. The topic of the requests is collected and never marked, so the
-- first sweep takes it away.
import EdgeGateway.Lib.Assoc
import EdgeGateway.Network.Topics

namespace EdgeGateway.Mqtt

open EdgeGateway.Lib EdgeGateway.Message EdgeGateway.Networks

/-! ## Types -/

inductive QoS where
  | atMostOnce
  | atLeastOnce
  | exactlyOnce
  deriving Repr, DecidableEq

/-- An unknown quality is the lowest one. -/
def castQos (qos : UInt8) : QoS :=
  if qos = 0 then .atMostOnce
  else if qos = 1 then .atLeastOnce
  else if qos = 2 then .exactlyOnce
  else .atMostOnce

/-- What the client knows of a topic: whether the topology wants it, and
whether the broker has been told. -/
structure SubEntry where
  active : Bool
  subscribed : Bool
  qos : QoS
  deriving Repr, DecidableEq

abbrev Subs := AList (fun _ : String => SubEntry)

/-- Which calls to the broker succeed. -/
structure Calls where
  subscribe : String → Bool
  unsubscribe : String → Bool

def Calls.succeed : Calls := ⟨fun _ => true, fun _ => true⟩

/-! ## A fresh connection -/

/-- The topics of all networks. -/
def topics (m : NetworkManager) : List Topic := m.networks.entries.flatMap (fun e => e.2.inbound)

def collectSubscriptions (m : NetworkManager) : Subs :=
  (topics m).foldl (fun subs t => subs.insert t.topic ⟨true, true, castQos t.qos⟩)
    ((∅ : Subs).insert m.topicLinkageRequest.topic
      ⟨true, true, castQos m.topicLinkageRequest.qos⟩)

/-! ## A change of the topology -/

/-- The topic is wanted. -/
def allTopics (subs : Subs) (t : Topic) : Subs :=
  match subs.lookup t.topic with
  | some entry => subs.insert t.topic { entry with active := true }
  | none => subs.insert t.topic ⟨true, false, castQos t.qos⟩

/-- The marks of the last topology go, and those of this one come. -/
def mark (m : NetworkManager) (subs : Subs) : Subs :=
  (topics m).foldl allTopics (Assoc.mapValues (fun entry => { entry with active := false }) subs)

/-- Wanted, and not subscribed. -/
def toSub (subs : Subs) : List String :=
  (subs.entries.filter (fun e => e.2.active && !e.2.subscribed)).map Sigma.fst

/-- Subscribed, and not wanted. -/
def toUnsub (subs : Subs) : List String :=
  (subs.entries.filter (fun e => !e.2.active && e.2.subscribed)).map Sigma.fst

def subscribeTo (calls : Calls) (subs : Subs) (topic : String) : Subs :=
  if calls.subscribe topic then Assoc.modify subs topic (fun e => { e with subscribed := true })
  else subs

def unsubscribeFrom (calls : Calls) (subs : Subs) (topic : String) : Subs :=
  if calls.unsubscribe topic then subs.erase topic else subs

/-- Both lists are made before the broker is called. -/
def sweep (calls : Calls) (subs : Subs) : Subs :=
  (toUnsub subs).foldl (unsubscribeFrom calls) ((toSub subs).foldl (subscribeTo calls) subs)

def updateSubscriptions (m : NetworkManager) (calls : Calls) (subs : Subs) : Subs :=
  sweep calls (mark m subs)

/-! ## What the client says about a topic -/

/-- The broker has been told about the topic, with this quality. -/
def Live (subs : Subs) (topic : String) (qos : QoS) : Prop :=
  ∃ active, subs.lookup topic = some ⟨active, true, qos⟩

/-- The entry of a topic that is wanted. -/
def wanted (qos : QoS) : Option SubEntry → Option SubEntry
  | some entry => some { entry with active := true }
  | none => some ⟨true, false, qos⟩

/-- What the sweep leaves of an entry. -/
def swept (calls : Calls) (topic : String) (entry : SubEntry) : Option SubEntry :=
  if entry.active && !entry.subscribed then
    some { entry with subscribed := calls.subscribe topic }
  else if !entry.active && entry.subscribed && calls.unsubscribe topic then none
  else some entry

theorem mem_toSub {subs : Subs} {topic : String} :
    topic ∈ toSub subs ↔ ∃ e, subs.lookup topic = some e ∧ (e.active && !e.subscribed) = true := by
  unfold toSub
  exact Assoc.mem_keys_filter

theorem mem_toUnsub {subs : Subs} {topic : String} :
    topic ∈ toUnsub subs ↔
      ∃ e, subs.lookup topic = some e ∧ (!e.active && e.subscribed) = true := by
  unfold toUnsub
  exact Assoc.mem_keys_filter

theorem local_insert : Assoc.Local Topic.topic
    (fun (subs : Subs) t => subs.insert t.topic ⟨true, true, castQos t.qos⟩)
    (fun t _ => some ⟨true, true, castQos t.qos⟩) where
  here := fun _ _ => AList.lookup_insert _
  away := fun _ _ _ ha => AList.lookup_insert_ne ha

theorem local_allTopics :
    Assoc.Local Topic.topic allTopics (fun t => wanted (castQos t.qos)) where
  here := fun subs t => by
    unfold allTopics wanted
    split <;> simp_all
  away := fun subs t topic ha => by
    unfold allTopics
    split <;> exact AList.lookup_insert_ne ha

theorem local_subscribeTo (calls : Calls) :
    Assoc.Local (fun topic : String => topic) (subscribeTo calls) (fun topic o =>
      if calls.subscribe topic then o.map (fun e => { e with subscribed := true }) else o) where
  here := fun subs topic => by
    unfold subscribeTo
    split
    · exact Assoc.lookup_modify subs topic _
    · rfl
  away := fun subs topic topic' ha => by
    unfold subscribeTo
    split
    · exact Assoc.lookup_modify_ne subs ha _
    · rfl

theorem local_unsubscribeFrom (calls : Calls) :
    Assoc.Local (fun topic : String => topic) (unsubscribeFrom calls) (fun topic o =>
      if calls.unsubscribe topic then none else o) where
  here := fun subs topic => by
    unfold unsubscribeFrom
    split
    · exact AList.lookup_erase topic subs
    · rfl
  away := fun subs topic topic' ha => by
    unfold unsubscribeFrom
    split
    · exact AList.lookup_erase_ne ha
    · rfl

/-- The sweep treats each entry alone. -/
theorem lookup_sweep (calls : Calls) (subs : Subs) (topic : String) :
    (sweep calls subs).lookup topic = (subs.lookup topic).bind (swept calls topic) := by
  unfold sweep
  rw [(local_unsubscribeFrom calls).lookup_foldl_keys (fun topic o => by split <;> rfl),
    (local_subscribeTo calls).lookup_foldl_keys (fun topic o => by split <;> cases o <;> rfl)]
  simp only [mem_toSub, mem_toUnsub]
  rcases subs.lookup topic with _ | ⟨active, subscribed, qos⟩
  · simp
  · cases active <;> cases subscribed <;> cases hs : calls.subscribe topic <;>
      cases hu : calls.unsubscribe topic <;> simp [swept, hs, hu]

/-! ## The two ways -/

section Ways

variable {idEdge : String} {m : NetworkManager}

theorem mem_topics (hm : m.Formed idEdge) {t : Topic} (h : t ∈ topics m) :
    ∃ id active, t ∈ (Network.new id active).inbound := by
  obtain ⟨e, he, ht⟩ := List.mem_flatMap.mp h
  have hnet := hm.networks e.1 e.2 (AList.mem_lookup_iff.mpr he)
  exact ⟨e.1, e.2.active, hnet ▸ ht⟩

/-- An entry has the quality of its topic. -/
def Proper (idEdge : String) (subs : Subs) : Prop :=
  ∀ topic e, subs.lookup topic = some e →
    (topic = (NetworkManager.newEmpty idEdge).topicLinkageRequest.topic ∧ e.qos = .atLeastOnce) ∨
    ∃ id active, ∃ t ∈ (Network.new id active).inbound, t.topic = topic ∧ castQos t.qos = e.qos

/-- The quality of a topic of a network is the one that its entry has. -/
theorem qos_of_proper {subs : Subs} (h : Proper idEdge subs) (hm : m.Formed idEdge) {t : Topic}
    (ht : t ∈ topics m) {e : SubEntry} (he : subs.lookup t.topic = some e) :
    e.qos = castQos t.qos := by
  obtain ⟨id, active, hin⟩ := mem_topics hm ht
  rcases h _ _ he with ⟨hlinkage, -⟩ | ⟨id', active', t', ht', htopic, hqos⟩
  · exact absurd hlinkage (inbound_ne_linkage hin idEdge)
  · rw [← hqos, inbound_qos ht' hin htopic]

/-- The turns of a pass for one topic agree. -/
theorem qos_of_topic (hm : m.Formed idEdge) {t t' : Topic} (ht : t ∈ topics m) (ht' : t' ∈ topics m)
    (heq : t'.topic = t.topic) : castQos t'.qos = castQos t.qos := by
  obtain ⟨id, active, hin⟩ := mem_topics hm ht
  obtain ⟨id', active', hin'⟩ := mem_topics hm ht'
  rw [inbound_qos hin' hin heq]

theorem lookup_collect (hm : m.Formed idEdge) {t : Topic} (ht : t ∈ topics m) :
    (collectSubscriptions m).lookup t.topic = some ⟨true, true, castQos t.qos⟩ := by
  unfold collectSubscriptions
  refine local_insert.lookup_foldl (fun _ => some ⟨true, true, castQos t.qos⟩)
    (fun _ => rfl) (fun t' ht' heq => ?_) ⟨t, ht, rfl⟩ _
  rw [qos_of_topic hm ht ht' heq]

theorem lookup_collect_of_notMem {topic : String} (h : ∀ t ∈ topics m, t.topic ≠ topic) :
    (collectSubscriptions m).lookup topic =
      if topic = m.topicLinkageRequest.topic then
        some ⟨true, true, castQos m.topicLinkageRequest.qos⟩
      else none := by
  unfold collectSubscriptions
  rw [local_insert.lookup_foldl_of_notMem h]
  by_cases hl : topic = m.topicLinkageRequest.topic
  · subst hl
    rw [AList.lookup_insert, if_pos rfl]
  · rw [AList.lookup_insert_ne hl, AList.lookup_empty, if_neg hl]

theorem lookup_mark (hm : m.Formed idEdge) {t : Topic} (ht : t ∈ topics m) (subs : Subs) :
    (mark m subs).lookup t.topic =
      wanted (castQos t.qos) ((subs.lookup t.topic).map (fun e => { e with active := false })) := by
  unfold mark
  rw [local_allTopics.lookup_foldl (wanted (castQos t.qos)) (fun o => by cases o <;> rfl)
    (fun t' ht' heq => by rw [qos_of_topic hm ht ht' heq]) ⟨t, ht, rfl⟩, Assoc.lookup_mapValues]

theorem lookup_mark_of_notMem {topic : String} (h : ∀ t ∈ topics m, t.topic ≠ topic)
    (subs : Subs) :
    (mark m subs).lookup topic =
      (subs.lookup topic).map (fun e => { e with active := false }) := by
  unfold mark
  rw [local_allTopics.lookup_foldl_of_notMem h, Assoc.lookup_mapValues]

/-- Every way to the map gives the topics their quality. -/
theorem proper_collect (hm : m.Formed idEdge) : Proper idEdge (collectSubscriptions m) := by
  intro topic e he
  by_cases hmem : ∃ t ∈ topics m, t.topic = topic
  · obtain ⟨t, ht, rfl⟩ := hmem
    obtain ⟨id, active, hin⟩ := mem_topics hm ht
    rw [lookup_collect hm ht] at he
    cases he
    exact .inr ⟨id, active, t, hin, rfl, rfl⟩
  · rw [lookup_collect_of_notMem (fun t ht heq => hmem ⟨t, ht, heq⟩)] at he
    split at he
    · cases he
      rename_i heq
      exact .inl ⟨by rw [heq, hm.linkage], by rw [hm.linkage]; rfl⟩
    · cases he

theorem proper_update (hm : m.Formed idEdge) (calls : Calls) {subs : Subs}
    (h : Proper idEdge subs) : Proper idEdge (updateSubscriptions m calls subs) := by
  intro topic e he
  unfold updateSubscriptions at he
  rw [lookup_sweep, Option.bind_eq_some_iff] at he
  obtain ⟨marked, hmarked, hswept⟩ := he
  have hqos : e.qos = marked.qos := by
    unfold swept at hswept
    split at hswept
    · rw [← Option.some.inj hswept]
    · split at hswept
      · cases hswept
      · rw [Option.some.inj hswept]
  rw [hqos]
  by_cases hmem : ∃ t ∈ topics m, t.topic = topic
  · obtain ⟨t, ht, rfl⟩ := hmem
    obtain ⟨id, active, hin⟩ := mem_topics hm ht
    rw [lookup_mark hm ht] at hmarked
    rcases hl : subs.lookup t.topic with _ | old
    · rw [hl] at hmarked
      exact .inr ⟨id, active, t, hin, rfl, by rw [← Option.some.inj hmarked]⟩
    · rw [hl] at hmarked
      have hold : marked.qos = old.qos := by rw [← Option.some.inj hmarked]
      rw [hold]
      exact h _ _ hl
  · rw [lookup_mark_of_notMem (fun t ht heq => hmem ⟨t, ht, heq⟩),
      Option.map_eq_some_iff] at hmarked
    obtain ⟨old, hl, rfl⟩ := hmarked
    have hold := h topic old hl
    exact hold

/-- A fresh connection is told about the requests and the networks. -/
theorem live_collect (hm : m.Formed idEdge) (topic : String) (qos : QoS) :
    Live (collectSubscriptions m) topic qos ↔
      (∃ t ∈ topics m, t.topic = topic ∧ castQos t.qos = qos) ∨
        topic = m.topicLinkageRequest.topic ∧ qos = castQos m.topicLinkageRequest.qos := by
  unfold Live
  by_cases hmem : ∃ t ∈ topics m, t.topic = topic
  · obtain ⟨t, ht, rfl⟩ := hmem
    obtain ⟨id, active, hin⟩ := mem_topics hm ht
    have hne : t.topic ≠ m.topicLinkageRequest.topic :=
      hm.linkage ▸ inbound_ne_linkage hin idEdge
    rw [lookup_collect hm ht]
    constructor
    · rintro ⟨active, heq⟩
      cases heq
      exact .inl ⟨t, ht, rfl, rfl⟩
    · rintro (⟨t', ht', heq, rfl⟩ | ⟨heq, -⟩)
      · exact ⟨true, by rw [qos_of_topic hm ht ht' heq]⟩
      · exact absurd heq hne
  · have hnot : ∀ t ∈ topics m, t.topic ≠ topic := fun t ht heq => hmem ⟨t, ht, heq⟩
    rw [lookup_collect_of_notMem hnot]
    constructor
    · rintro ⟨active, heq⟩
      split at heq
      · cases heq
        exact .inr ⟨‹_›, rfl⟩
      · cases heq
    · rintro (⟨t, ht, heq, -⟩ | ⟨rfl, rfl⟩)
      · exact absurd heq (hnot t ht)
      · exact ⟨true, by rw [if_pos rfl]⟩

/-- An update that succeeds keeps the topics of the networks alone. -/
theorem live_update (hm : m.Formed idEdge) {subs : Subs} (h : Proper idEdge subs) (topic : String)
    (qos : QoS) :
    Live (updateSubscriptions m .succeed subs) topic qos ↔
      ∃ t ∈ topics m, t.topic = topic ∧ castQos t.qos = qos := by
  unfold Live updateSubscriptions
  rw [lookup_sweep]
  by_cases hmem : ∃ t ∈ topics m, t.topic = topic
  · obtain ⟨t, ht, rfl⟩ := hmem
    have hentry : ((mark m subs).lookup t.topic).bind (swept .succeed t.topic) =
        some ⟨true, true, castQos t.qos⟩ := by
      rw [lookup_mark hm ht]
      rcases hl : subs.lookup t.topic with _ | old
      · rfl
      · have hqos := qos_of_proper h hm ht hl
        rcases old with ⟨active, subscribed, qos⟩
        subst hqos
        cases subscribed <;> rfl
    rw [hentry]
    constructor
    · rintro ⟨active, heq⟩
      cases heq
      exact ⟨t, ht, rfl, rfl⟩
    · rintro ⟨t', ht', heq, rfl⟩
      exact ⟨true, by rw [qos_of_topic hm ht ht' heq]⟩
  · have hnot : ∀ t ∈ topics m, t.topic ≠ topic := fun t ht heq => hmem ⟨t, ht, heq⟩
    rw [lookup_mark_of_notMem hnot]
    refine iff_of_false ?_ (fun ⟨t, ht, heq, _⟩ => hnot t ht heq)
    rintro ⟨active, heq⟩
    rcases hl : subs.lookup topic with _ | ⟨active', subscribed, qos'⟩
    · rw [hl] at heq
      cases heq
    · rw [hl] at heq
      cases subscribed <;> cases heq

end Ways

/-! ## The client -/

/-- The commands of `rx_net`. -/
inductive MqttServiceCommand where
  | networksReady
  | networksUpdated
  deriving Repr, DecidableEq

inductive StateClient where
  | waiting
  | init
  | work (currentSubs : Subs)
  | error

namespace StateClient

/-- The client takes a command; in `init` and in `error` it takes none. -/
def command (m : NetworkManager) (calls : Calls) :
    StateClient → MqttServiceCommand → Option StateClient
  | .waiting, .networksReady => some .init
  | .waiting, .networksUpdated => some .waiting
  | .work subs, .networksUpdated => some (.work (updateSubscriptions m calls subs))
  | .work subs, .networksReady => some (.work subs)
  | .init, _ => none
  | .error, _ => none

/-- The client reads its certificates and subscribes to all topics. -/
def connect (m : NetworkManager) (certificates : Bool) (calls : Calls) :
    StateClient → Option StateClient
  | .init =>
    let subs := collectSubscriptions m
    some (if certificates && subs.keys.all calls.subscribe then .work subs else .error)
  | _ => none

/-- The connection is lost, or a channel is closed. -/
def lose : StateClient → Option StateClient
  | .work _ => some .error
  | _ => none

/-- The pause after an error is over. -/
def retry : StateClient → Option StateClient
  | .error => some .init
  | _ => none

end StateClient

/-- The client beside the cache that it reads. -/
structure Client where
  manager : NetworkManager
  state : StateClient

inductive Client.Label where
  | admin (i : AdminInput)
  | command (cmd : MqttServiceCommand) (calls : Calls)
  | connect (certificates : Bool) (calls : Calls)
  | lose
  | retry

def Client.step (idEdge : String) (c : Client) : Client.Label → Option Client
  | .admin i => (adminDecision idEdge c.manager i).map (fun d => { c with manager := d.manager })
  | .command cmd calls => (c.state.command c.manager calls cmd).map (fun s => { c with state := s })
  | .connect certificates calls =>
    (c.state.connect c.manager certificates calls).map (fun s => { c with state := s })
  | .lose => c.state.lose.map (fun s => { c with state := s })
  | .retry => c.state.retry.map (fun s => { c with state := s })

def clientMachine (idEdge : String) : Machine Client Client.Label where
  init := fun c => c.manager = NetworkManager.newEmpty idEdge ∧ c.state = .waiting
  step := Client.step idEdge

/-! ## The law -/

section Law

variable {idEdge : String} {c c' : Client}

/-- The cache has its topics, and the entries of a client at work theirs. -/
structure Client.Sound (idEdge : String) (c : Client) : Prop where
  formed : c.manager.Formed idEdge
  proper : ∀ subs, c.state = .work subs → Proper idEdge subs

theorem proper_command {m : NetworkManager} {calls : Calls} {cmd : MqttServiceCommand}
    {s s' : StateClient} (hm : m.Formed idEdge)
    (hs : ∀ subs, s = .work subs → Proper idEdge subs) (h : s.command m calls cmd = some s') :
    ∀ subs, s' = .work subs → Proper idEdge subs := by
  rintro subs rfl
  cases s <;> cases cmd <;>
    simp only [StateClient.command, Option.some.injEq, reduceCtorEq, StateClient.work.injEq] at h
  · exact h ▸ hs _ rfl
  · exact h ▸ proper_update hm calls (hs _ rfl)

theorem proper_connect {m : NetworkManager} {certificates : Bool} {calls : Calls}
    {s s' : StateClient} (hm : m.Formed idEdge) (h : s.connect m certificates calls = some s') :
    ∀ subs, s' = .work subs → Proper idEdge subs := by
  rintro subs rfl
  cases s <;> simp only [StateClient.connect, Option.some.injEq, reduceCtorEq] at h
  split at h
  · cases h
    exact proper_collect hm
  · cases h

theorem sound_step {i : Client.Label} (h : c.Sound idEdge)
    (hs : (clientMachine idEdge).step c i = some c') : c'.Sound idEdge := by
  cases i with
  | admin i =>
    obtain ⟨d, hd, rfl⟩ := Option.map_eq_some_iff.mp hs
    exact ⟨formed_adminDecision h.formed hd, h.proper⟩
  | command cmd calls =>
    obtain ⟨s, hcmd, rfl⟩ := Option.map_eq_some_iff.mp hs
    exact ⟨h.formed, proper_command h.formed h.proper hcmd⟩
  | connect certificates calls =>
    obtain ⟨s, hconnect, rfl⟩ := Option.map_eq_some_iff.mp hs
    exact ⟨h.formed, proper_connect h.formed hconnect⟩
  | lose =>
    obtain ⟨s, hlose, rfl⟩ := Option.map_eq_some_iff.mp hs
    refine ⟨h.formed, ?_⟩
    rintro subs rfl
    cases hc : c.state <;> simp [hc, StateClient.lose] at hlose
  | retry =>
    obtain ⟨s, hretry, rfl⟩ := Option.map_eq_some_iff.mp hs
    refine ⟨h.formed, ?_⟩
    rintro subs rfl
    cases hc : c.state <;> simp [hc, StateClient.retry] at hretry

/-- After any change of the topology the two ways differ, whatever the client
had before: an update keeps all topics but the one of the requests. -/
theorem an_update_drops_the_requests (idEdge : String) (t : List (Client × Client.Label))
    (c : Client) (run : (clientMachine idEdge).Run t c) (subs : Subs) (hwork : c.state = .work subs)
    (m : NetworkManager) (hm : m.Formed idEdge) :
    (∀ topic qos, Live (updateSubscriptions m .succeed subs) topic qos ↔
      Live (collectSubscriptions m) topic qos ∧ topic ≠ m.topicLinkageRequest.topic) ∧
    ¬ ∀ topic qos, Live (updateSubscriptions m .succeed subs) topic qos ↔
      Live (collectSubscriptions m) topic qos := by
  have hsound : c.Sound idEdge := by
    refine run.always (Client.Sound idEdge) ?_ (fun c i c' h hs => sound_step h hs)
    rintro c ⟨hmanager, hwaiting⟩
    refine ⟨hmanager ▸ formed_newEmpty idEdge, fun subs hs => ?_⟩
    rw [hwaiting] at hs
    cases hs
  have hdiff : ∀ topic qos, Live (updateSubscriptions m .succeed subs) topic qos ↔
      Live (collectSubscriptions m) topic qos ∧ topic ≠ m.topicLinkageRequest.topic := by
    intro topic qos
    rw [live_update hm (hsound.proper subs hwork), live_collect hm]
    constructor
    · rintro ⟨t, ht, rfl, rfl⟩
      obtain ⟨id, active, hin⟩ := mem_topics hm ht
      exact ⟨.inl ⟨t, ht, rfl, rfl⟩, hm.linkage ▸ inbound_ne_linkage hin idEdge⟩
    · rintro ⟨hnet | ⟨heq, -⟩, hne⟩
      · exact hnet
      · exact absurd heq hne
  refine ⟨hdiff, fun hsame => ?_⟩
  have hfresh : Live (collectSubscriptions m) m.topicLinkageRequest.topic
      (castQos m.topicLinkageRequest.qos) := (live_collect hm _ _).mpr (.inr ⟨rfl, rfl⟩)
  exact ((hdiff _ _).mp ((hsame _ _).mpr hfresh)).2 rfl

/-! ## A concrete run -/

/-- The gateway as it starts. -/
def Client.start : Client := { manager := NetworkManager.newEmpty "edge", state := .waiting }

/-- A network is loaded, and the client connects. -/
def connected : List Client.Label :=
  [.admin (.batch (.network [{ idNetwork := "n", active := true }])),
    .command .networksReady .succeed, .connect true .succeed]

/-- The subscriptions of the connected client. -/
def connectedSubs : Subs :=
  collectSubscriptions ((NetworkManager.newEmpty "edge").addNetwork (Network.new "n" true))

theorem connected_work :
    (clientMachine "edge").final Client.start connected =
      some
        { manager := (NetworkManager.newEmpty "edge").addNetwork (Network.new "n" true)
          state := .work connectedSubs } := rfl

theorem an_update_differs_from_a_connection :
    ¬ ∀ (idEdge : String) (t : List (Client × Client.Label)) (c : Client),
      (clientMachine idEdge).Run t c → ∀ subs, c.state = .work subs →
      ∀ m : NetworkManager, m.Formed idEdge → ∀ topic qos,
        Live (updateSubscriptions m .succeed subs) topic qos ↔
          Live (collectSubscriptions m) topic qos := by
  intro h
  have hinit : (clientMachine "edge").init Client.start := ⟨rfl, rfl⟩
  have hrun := Machine.run_append_trace (Machine.Run.start hinit) connected_work
  have hformed := formed_addNetwork (formed_newEmpty "edge") "n" true
  have hsame := (h _ _ _ hrun _ rfl _ hformed "iot/edge/linkage_request" .atLeastOnce).mpr
    ⟨true, by decide +kernel⟩
  obtain ⟨active, hlive⟩ := hsame
  have hgone : (updateSubscriptions ((NetworkManager.newEmpty "edge").addNetwork
      (Network.new "n" true)) .succeed connectedSubs).lookup "iot/edge/linkage_request" = none := by
    decide +kernel
  rw [hgone] at hlive
  cases hlive

theorem the_connected_client_loses_the_requests :
    ¬ ∀ topic qos, Live (updateSubscriptions (NetworkManager.newEmpty "edge") .succeed
        connectedSubs) topic qos ↔
      Live (collectSubscriptions (NetworkManager.newEmpty "edge")) topic qos :=
  (an_update_drops_the_requests "edge" _ _
    (Machine.run_append_trace (Machine.Run.start ⟨rfl, rfl⟩) connected_work) connectedSubs rfl _
    (formed_newEmpty "edge")).2

end Law

end EdgeGateway.Mqtt
