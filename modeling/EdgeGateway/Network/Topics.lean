-- The topics of the networks in memory. Whatever `network_admin` takes, each
-- network has the topics that its id gives it, and the last level of a topic
-- says what is published there.
import EdgeGateway.Network.Cache

namespace EdgeGateway.Networks

open EdgeGateway.Lib EdgeGateway.Message

/-! ## Networks as they are built -/

/-- Each network is what `Network.new` makes of its id, and the topic of the
requests is the one of the edge. -/
structure NetworkManager.Formed (idEdge : String) (m : NetworkManager) : Prop where
  networks : ∀ id network, m.networks.lookup id = some network →
    network = Network.new id network.active
  linkage : m.topicLinkageRequest = (NetworkManager.newEmpty idEdge).topicLinkageRequest

section Formed

open NetworkManager

variable {idEdge : String} {m m' : NetworkManager}

theorem formed_newEmpty (idEdge : String) : (newEmpty idEdge).Formed idEdge := by
  refine ⟨fun id network h => ?_, rfl⟩
  simp [newEmpty] at h

theorem formed_of_frame (h : m.Formed idEdge) (hnetworks : m'.networks = m.networks)
    (hlinkage : m'.topicLinkageRequest = m.topicLinkageRequest) : m'.Formed idEdge := by
  refine ⟨fun id network hl => ?_, hlinkage.trans h.linkage⟩
  rw [hnetworks] at hl
  exact h.networks id network hl

theorem formed_insert {networks : AList (fun _ : String => Network)} {id₀ : String}
    {network₀ : Network}
    (h : ∀ id network, networks.lookup id = some network → network = Network.new id network.active)
    (hnew : network₀ = Network.new id₀ network₀.active) :
    ∀ id network, (networks.insert id₀ network₀).lookup id = some network →
      network = Network.new id network.active := by
  intro id network hl
  by_cases hid : id = id₀
  · subst hid
    rw [AList.lookup_insert] at hl
    cases hl
    exact hnew
  · rw [AList.lookup_insert_ne hid] at hl
    exact h id network hl

theorem formed_addNetwork (h : m.Formed idEdge) (id : String) (active : Bool) :
    (m.addNetwork (Network.new id active)).Formed idEdge :=
  ⟨formed_insert h.networks rfl, h.linkage⟩

theorem formed_changeActive (h : m.Formed idEdge) (active : Bool) (id : String) :
    (m.changeActive active id).Formed idEdge := by
  unfold changeActive
  rcases hl : m.networks.lookup id with _ | network
  · exact h
  · have hnew : { network with active := active } = Network.new id active := by
      rw [h.networks id network hl]
      rfl
    simp only [hnew]
    exact ⟨formed_insert h.networks rfl, h.linkage⟩

theorem formed_removeNetwork (h : m.Formed idEdge) (id₀ : String) :
    (m.removeNetwork id₀).Formed idEdge := by
  refine ⟨fun id network hl => ?_, h.linkage⟩
  unfold removeNetwork at hl
  by_cases hid : id = id₀
  · subst hid
    rw [AList.lookup_erase] at hl
    cases hl
  · rw [AList.lookup_erase_ne hid] at hl
    exact h.networks id network hl

theorem formed_removeHub (h : m.Formed idEdge) (idNetwork idHub : String) :
    (m.removeHub idNetwork idHub).Formed idEdge := by
  unfold removeHub
  split
  · exact formed_of_frame h rfl rfl
  · exact h

/-- No message of the server spoils a network. -/
theorem formed_adminServer (h : m.Formed idEdge) (now : Int64) (msg : ServerMessage) :
    (adminServer idEdge now m msg).manager.Formed idEdge := by
  cases msg with
  | network network =>
    rcases ha : actionOf m network <;> simp only [adminServer, ha, handleAction]
    · exact formed_removeNetwork h _
    · exact formed_changeActive h _ _
    · exact formed_addNetwork h _ _
    · exact h
  | deleteHub hub => exact formed_removeHub h _ _
  | _ => exact h

theorem formed_adminHub (h : m.Formed idEdge) (request : LinkageRequest) :
    (adminHub m request).manager.Formed idEdge := by
  unfold adminHub
  split
  · exact h
  · exact formed_of_frame h rfl rfl

theorem formed_adminBatch (h : m.Formed idEdge) (batch : Batch) :
    (adminBatch m batch).manager.Formed idEdge := by
  cases batch with
  | network rows =>
    show (rows.foldl (fun m row => m.addNetwork row.castToNetwork) m).Formed idEdge
    induction rows generalizing m with
    | nil => exact h
    | cons row rows ih => exact ih (formed_addNetwork h _ _)
  | hub rows =>
    show (rows.foldl (fun m row => m.addHub row.networkId row.castToHub) m).Formed idEdge
    induction rows generalizing m with
    | nil => exact h
    | cons row rows ih => exact ih (formed_of_frame h rfl rfl)

theorem formed_adminDecision (h : m.Formed idEdge) {i : AdminInput} {d : Decision}
    (hd : adminDecision idEdge m i = some d) : d.manager.Formed idEdge := by
  cases i with
  | server now msg => exact Option.some.inj hd ▸ formed_adminServer h now msg
  | linkage request => exact Option.some.inj hd ▸ formed_adminHub h request
  | batch batch =>
    simp only [adminDecision, Option.ite_none_right_eq_some, Option.some.injEq] at hd
    exact hd.2 ▸ formed_adminBatch h batch

/-! ## Topics of the edge -/

/-- The topics that the manager has from its start. -/
def NetworkManager.edgeTopics (m : NetworkManager) : List Topic :=
  [m.topicHandshake, m.topicState, m.topicHeartbeat, m.topicLinkageRequest, m.topicLinkageAck]

theorem edgeTopics_adminServer (idEdge : String) (now : Int64) (m : NetworkManager)
    (msg : ServerMessage) : (adminServer idEdge now m msg).manager.edgeTopics = m.edgeTopics := by
  cases msg with
  | network network =>
    rcases ha : actionOf m network <;> simp only [adminServer, ha, handleAction]
    · rfl
    · unfold changeActive
      split <;> rfl
    · rfl
  | deleteHub hub =>
    simp only [adminServer, removeHub]
    split <;> rfl
  | _ => rfl

theorem edgeTopics_adminBatch (m : NetworkManager) (batch : Batch) :
    (adminBatch m batch).manager.edgeTopics = m.edgeTopics := by
  cases batch with
  | network rows =>
    show (rows.foldl (fun m row => m.addNetwork row.castToNetwork) m).edgeTopics = m.edgeTopics
    induction rows generalizing m with
    | nil => rfl
    | cons row rows ih => exact ih _
  | hub rows =>
    show (rows.foldl (fun m row => m.addHub row.networkId row.castToHub) m).edgeTopics =
      m.edgeTopics
    induction rows generalizing m with
    | nil => rfl
    | cons row rows ih => exact ih _

theorem edgeTopics_adminDecision {i : AdminInput} {d : Decision}
    (hd : adminDecision idEdge m i = some d) : d.manager.edgeTopics = m.edgeTopics := by
  cases i with
  | server now msg => exact Option.some.inj hd ▸ edgeTopics_adminServer idEdge now m msg
  | linkage request =>
    rw [← Option.some.inj hd]
    unfold adminHub
    split <;> rfl
  | batch batch =>
    simp only [adminDecision, Option.ite_none_right_eq_some, Option.some.injEq] at hd
    exact hd.2 ▸ edgeTopics_adminBatch m batch

/-- In every run of `network_admin` the manager has the topics that its ids give it. -/
theorem topics_of_run {t : List (NetworkManager × AdminInput)}
    (run : (adminMachine idEdge).Run t m) :
    m.Formed idEdge ∧ m.edgeTopics = (newEmpty idEdge).edgeTopics := by
  apply run.always (fun m => m.Formed idEdge ∧ m.edgeTopics = (newEmpty idEdge).edgeTopics)
  · rintro m rfl
    exact ⟨formed_newEmpty idEdge, rfl⟩
  · rintro m i m' ⟨hformed, htopics⟩ hs
    obtain ⟨d, hd, rfl⟩ := Option.map_eq_some_iff.mp hs
    exact ⟨formed_adminDecision hformed hd, (edgeTopics_adminDecision hd).trans htopics⟩

end Formed

/-! ## The topics that hubs publish to -/

namespace Network

/-- The topics that the gateway subscribes to for a network. -/
def inbound (net : Network) : List Topic :=
  [net.topicHubState, net.topicData, net.topicMonitor, net.topicAlertAir, net.topicAlertTemp,
    net.topicHubFirmwareOk, net.topicBalanceModeHandshake, net.topicHubSettingOk,
    net.topicSetting, net.topicQueueEmpty, net.topicQueueEmptySafe]

/-- Their last levels, each with its quality of service. -/
def inboundLevels : List (String × UInt8) :=
  [("hub_state", 0), ("data", 0), ("monitor", 0), ("alert_air", 1), ("alert_temp", 1),
    ("hub_firmware_ok", 2), ("balance_mode_handshake", 0), ("hub_setting_ok", 0), ("setting", 0),
    ("empty_queue", 1), ("empty_queue_safe", 1)]

theorem inbound_new (id : String) (active : Bool) :
    (Network.new id active).inbound =
      inboundLevels.map (fun l => ⟨s!"iot/{id}/hub/+" ++ "/" ++ l.1, l.2⟩) := by
  simp only [inbound, inboundLevels, Network.new, String.append_assoc, List.map_cons, List.map_nil,
    List.cons.injEq, Topic.mk.injEq, String.append_right_inj, and_true]
  decide

end Network

/-- The last level of a topic, from its end. -/
def lastLevel (topic : String) : List Char := topic.toList.reverse.takeWhile (· ≠ '/')

theorem lastLevel_append (path level : String) (h : '/' ∉ level.toList) :
    lastLevel (path ++ "/" ++ level) = level.toList.reverse := by
  have hall : ∀ c ∈ level.toList.reverse, decide (c ≠ '/') = true := by
    intro c hc
    rw [decide_eq_true_eq]
    rintro rfl
    exact h (List.mem_reverse.mp hc)
  unfold lastLevel
  rw [String.toList_append, String.toList_append, List.reverse_append, List.reverse_append,
    List.takeWhile_append_of_pos hall]
  simp

theorem plain_inboundLevels : ∀ l ∈ Network.inboundLevels, '/' ∉ l.1.toList := by decide

theorem lastLevel_inbound {id : String} {active : Bool} {t : Topic}
    (h : t ∈ (Network.new id active).inbound) :
    ∃ l ∈ Network.inboundLevels, lastLevel t.topic = l.1.toList.reverse ∧ t.qos = l.2 := by
  rw [Network.inbound_new, List.mem_map] at h
  obtain ⟨l, hl, rfl⟩ := h
  exact ⟨l, hl, lastLevel_append _ _ (plain_inboundLevels l hl), rfl⟩

/-- The topic decides the quality of service. -/
theorem inbound_qos {id id' : String} {active active' : Bool} {t t' : Topic}
    (h : t ∈ (Network.new id active).inbound) (h' : t' ∈ (Network.new id' active').inbound)
    (heq : t.topic = t'.topic) : t.qos = t'.qos := by
  obtain ⟨l, hl, hlevel, hqos⟩ := lastLevel_inbound h
  obtain ⟨l', hl', hlevel', hqos'⟩ := lastLevel_inbound h'
  have hname : l.1 = l'.1 := by
    rw [heq, hlevel', List.reverse_inj, String.toList_inj] at hlevel
    exact hlevel.symm
  have hone : ∀ l ∈ Network.inboundLevels, ∀ l' ∈ Network.inboundLevels,
      l.1 = l'.1 → l.2 = l'.2 := by
    decide
  rw [hqos, hqos', hone l hl l' hl' hname]

/-- The topic decides the network. -/
theorem inbound_network {id id' : String} {active active' : Bool} {t t' : Topic}
    (h : t ∈ (Network.new id active).inbound) (h' : t' ∈ (Network.new id' active').inbound)
    (heq : t.topic = t'.topic) : id = id' := by
  rw [Network.inbound_new, List.mem_map] at h h'
  obtain ⟨l, hl, rfl⟩ := h
  obtain ⟨l', hl', rfl⟩ := h'
  have hlevel := congrArg lastLevel heq
  rw [lastLevel_append _ _ (plain_inboundLevels l hl),
    lastLevel_append _ _ (plain_inboundLevels l' hl'), List.reverse_inj,
    String.toList_inj] at hlevel
  have hshown : toString id = toString id' := by simpa [hlevel] using heq
  exact hshown

/-- No network has the topic of the requests. -/
theorem inbound_ne_linkage {id : String} {active : Bool} {t : Topic}
    (h : t ∈ (Network.new id active).inbound) (idEdge : String) :
    t.topic ≠ (NetworkManager.newEmpty idEdge).topicLinkageRequest.topic := by
  obtain ⟨l, hl, hlevel, -⟩ := lastLevel_inbound h
  have hrequest : (NetworkManager.newEmpty idEdge).topicLinkageRequest.topic =
      s!"iot/{idEdge}" ++ "/" ++ "linkage_request" := by
    simp only [NetworkManager.newEmpty, String.append_assoc, String.append_right_inj]
    decide
  have hnames : ∀ l ∈ Network.inboundLevels, l.1 ≠ "linkage_request" := by decide
  intro heq
  rw [heq, hrequest, lastLevel_append _ _ (by decide), List.reverse_inj,
    String.toList_inj] at hlevel
  exact hnames l hl hlevel.symm

end EdgeGateway.Networks
