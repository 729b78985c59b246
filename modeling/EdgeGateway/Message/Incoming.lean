-- The topics of both directions. `msg_from_hub` decodes a payload by the end of its topic;
-- the filters end with levels that name what is sent there, so the ids before them decide
-- nothing, and what the gateway publishes ends with other levels.
import EdgeGateway.Lib.TopicFilter
import EdgeGateway.Message.Service
import EdgeGateway.Network.Topics

namespace EdgeGateway.Message

open EdgeGateway.Lib EdgeGateway.Networks

/-! ## The end of a topic -/

/-- The messages that `msg_from_hub` decodes. -/
inductive Incoming where
  | report
  | hubState
  | monitor
  | alertAir
  | alertTem
  | handshakeFromHub
  | firmwareOk
  | fromHubSettingsAck
  | fromHubSettings
  | linkageRequest
  | emptyQueueSafe
  | emptyQueue
  deriving Repr, DecidableEq

/-- `ends_with` of a string. -/
def endsWith (topic suffix : String) : Bool := suffix.toList.isSuffixOf topic.toList

/-- The tests of `msg_from_hub`, in their order. -/
def classify (topic : String) : Option Incoming :=
  if endsWith topic "data" then some .report
  else if endsWith topic "hub_state" then some .hubState
  else if endsWith topic "monitor" then some .monitor
  else if endsWith topic "alert_air" then some .alertAir
  else if endsWith topic "alert_temp" then some .alertTem
  else if endsWith topic "balance_mode_handshake" then some .handshakeFromHub
  else if endsWith topic "hub_firmware_ok" then some .firmwareOk
  else if endsWith topic "hub_setting_ok" then some .fromHubSettingsAck
  else if endsWith topic "setting" then some .fromHubSettings
  else if endsWith topic "linkage_request" then some .linkageRequest
  else if endsWith topic "empty_queue_safe" then some .emptyQueueSafe
  else if endsWith topic "empty_queue" then some .emptyQueue
  else none

/-- `from_slice` of MessagePack, for each message. -/
structure FromSlice where
  measurement : List UInt8 → Option Measurement
  hubState : List UInt8 → Option HubState
  monitor : List UInt8 → Option Monitor
  alertAir : List UInt8 → Option AlertAir
  alertTh : List UInt8 → Option AlertTh
  handshakeFromHub : List UInt8 → Option HandshakeFromHub
  firmwareOk : List UInt8 → Option FirmwareOk
  settingOk : List UInt8 → Option SettingOk
  settings : List UInt8 → Option Settings
  linkageRequest : List UInt8 → Option LinkageRequest
  emptyQueueSafeMode : List UInt8 → Option EmptyQueueSafeMode
  emptyQueue : List UInt8 → Option EmptyQueue

namespace Incoming

/-- The payload as a message of this type. -/
def decode (slice : FromSlice) (payload : List UInt8) : Incoming → Option HubMessage
  | .report => (slice.measurement payload).map .report
  | .hubState => (slice.hubState payload).map .hubState
  | .monitor => (slice.monitor payload).map .monitor
  | .alertAir => (slice.alertAir payload).map .alertAir
  | .alertTem => (slice.alertTh payload).map .alertTem
  | .handshakeFromHub => (slice.handshakeFromHub payload).map .handshakeFromHub
  | .firmwareOk => (slice.firmwareOk payload).map .firmwareOk
  | .fromHubSettingsAck => (slice.settingOk payload).map .fromHubSettingsAck
  | .fromHubSettings => (slice.settings payload).map .fromHubSettings
  | .linkageRequest => (slice.linkageRequest payload).map .linkageRequest
  | .emptyQueueSafe => (slice.emptyQueueSafeMode payload).map .emptyQueueSafe
  | .emptyQueue => (slice.emptyQueue payload).map .emptyQueue

/-- The filter that lets a message of this type in. -/
def filter (m : NetworkManager) (network : Network) : Incoming → Topic
  | .report => network.topicData
  | .hubState => network.topicHubState
  | .monitor => network.topicMonitor
  | .alertAir => network.topicAlertAir
  | .alertTem => network.topicAlertTemp
  | .handshakeFromHub => network.topicBalanceModeHandshake
  | .firmwareOk => network.topicHubFirmwareOk
  | .fromHubSettingsAck => network.topicHubSettingOk
  | .fromHubSettings => network.topicSetting
  | .linkageRequest => m.topicLinkageRequest
  | .emptyQueueSafe => network.topicQueueEmptySafe
  | .emptyQueue => network.topicQueueEmpty

/-- The level that the filter ends with. -/
def level : Incoming → String
  | .report => "data"
  | .hubState => "hub_state"
  | .monitor => "monitor"
  | .alertAir => "alert_air"
  | .alertTem => "alert_temp"
  | .handshakeFromHub => "balance_mode_handshake"
  | .firmwareOk => "hub_firmware_ok"
  | .fromHubSettingsAck => "hub_setting_ok"
  | .fromHubSettings => "setting"
  | .linkageRequest => "linkage_request"
  | .emptyQueueSafe => "empty_queue_safe"
  | .emptyQueue => "empty_queue"

end Incoming

/-- What a packet of the broker decodes to. -/
def decodeTopic (slice : FromSlice) (topic : String) (payload : List UInt8) : Option HubMessage :=
  (classify topic).bind (Incoming.decode slice payload)

/-! ## What is published -/

/-- The topics that `msg_to_hub` publishes to, for a network and for the edge. -/
def outbound (m : NetworkManager) (network : Network) : List String :=
  [network.topicNewSetting.topic, network.topicNewFirmware.topic, network.topicSettingOk.topic,
    network.topicDeleteHub.topic, network.topicActiveHub.topic, m.topicHandshake.topic,
    s!"{m.topicState.topic}/edge_state", s!"{m.topicState.topic}/phase", m.topicHeartbeat.topic,
    m.topicLinkageAck.topic]

/-- The levels that the topics of a network end with. -/
def networkLevels : List String :=
  ["new_setting", "new_firmware", "new_setting_ok", "delete_hub", "active"]

/-- What the topics of the edge have after its id, and the levels that they end with. -/
def edgeLevels : List (String × String) :=
  [("", "handshake"), ("/state", "edge_state"), ("/state", "phase"), ("", "heartbeat"),
    ("", "linkage_ack")]

/-! ## The last level decides -/

theorem plain_level (kind : Incoming) : '/' ∉ kind.level.toList := by
  cases kind <;> decide

theorem named_level (kind : Incoming) : Named kind.level.toList := by
  cases kind <;> decide

theorem classify_level (kind : Incoming) : classify kind.level = some kind := by
  cases kind <;> decide

theorem endsWith_of_levels {topic level : String} {ls : List (List Char)}
    (h : levels topic = ls ++ [level.toList]) {suffix : String} (hplain : '/' ∉ suffix.toList) :
    endsWith topic suffix = endsWith level suffix := by
  unfold endsWith
  rw [Bool.eq_iff_iff, List.isSuffixOf_iff_suffix, List.isSuffixOf_iff_suffix]
  exact suffix_iff_of_levels hplain h

/-- No test looks before the last level. -/
theorem classify_of_levels {topic level : String} {ls : List (List Char)}
    (h : levels topic = ls ++ [level.toList]) : classify topic = classify level := by
  have htest : ∀ suffix : String,
      '/' ∉ suffix.toList → endsWith topic suffix = endsWith level suffix :=
    fun suffix hplain => endsWith_of_levels h hplain
  unfold classify
  rw [htest "data" (by decide), htest "hub_state" (by decide), htest "monitor" (by decide),
    htest "alert_air" (by decide), htest "alert_temp" (by decide),
    htest "balance_mode_handshake" (by decide), htest "hub_firmware_ok" (by decide),
    htest "hub_setting_ok" (by decide), htest "setting" (by decide),
    htest "linkage_request" (by decide), htest "empty_queue_safe" (by decide),
    htest "empty_queue" (by decide)]

/-- A filter ends with the level of its type. -/
theorem filter_topic (idEdge id : String) (active : Bool) (kind : Incoming) :
    ∃ path,
      (kind.filter (.newEmpty idEdge) (.new id active)).topic = path ++ "/" ++ kind.level := by
  cases kind with
  | linkageRequest =>
    refine ⟨s!"iot/{idEdge}", ?_⟩
    simp only [Incoming.filter, Incoming.level, NetworkManager.newEmpty, String.append_assoc,
      String.append_right_inj]
    decide
  | _ =>
    refine ⟨s!"iot/{id}/hub/+", ?_⟩
    simp only [Incoming.filter, Incoming.level, Network.new, String.append_assoc,
      String.append_right_inj]
    decide

theorem outbound_new (idEdge id : String) (active : Bool) :
    outbound (.newEmpty idEdge) (.new id active) =
      networkLevels.map (fun l => s!"iot/{id}" ++ "/" ++ l) ++
        edgeLevels.map (fun l => s!"iot/{idEdge}{l.1}" ++ "/" ++ l.2) := by
  have hshown : ∀ s : String, toString s = s := fun s => rfl
  simp only [outbound, networkLevels, edgeLevels, Network.new, NetworkManager.newEmpty, hshown,
    String.append_assoc, List.map_cons, List.map_nil, List.cons_append, List.nil_append,
    List.cons.injEq, String.append_right_inj, and_true]
  decide

/-- What is published ends with a level that no filter ends with. -/
theorem outbound_topic {idEdge id : String} {active : Bool} {topic : String}
    (h : topic ∈ outbound (.newEmpty idEdge) (.new id active)) :
    ∃ path level, topic = path ++ "/" ++ level ∧ '/' ∉ level.toList ∧
      ∀ kind : Incoming, kind.level ≠ level := by
  have hnetwork : ∀ l ∈ networkLevels, '/' ∉ l.toList ∧ ∀ kind : Incoming, kind.level ≠ l := by
    intro l hl
    refine ⟨(by decide : ∀ l ∈ networkLevels, '/' ∉ l.toList) l hl, fun kind => ?_⟩
    cases kind <;> exact (by decide : ∀ l ∈ networkLevels, _ ≠ l) l hl
  have hedge : ∀ l ∈ edgeLevels, '/' ∉ l.2.toList ∧ ∀ kind : Incoming, kind.level ≠ l.2 := by
    intro l hl
    refine ⟨(by decide : ∀ l ∈ edgeLevels, '/' ∉ l.2.toList) l hl, fun kind => ?_⟩
    cases kind <;> exact (by decide : ∀ l ∈ edgeLevels, _ ≠ l.2) l hl
  rw [outbound_new, List.mem_append, List.mem_map, List.mem_map] at h
  rcases h with ⟨l, hl, rfl⟩ | ⟨l, hl, rfl⟩
  · exact ⟨_, l, rfl, hnetwork l hl⟩
  · exact ⟨_, l.2, rfl, hedge l hl⟩

/-! ## The law -/

/-- The filter that lets a topic in is the type that it is decoded as, and nothing that the
gateway publishes comes back to it. -/
theorem topics_say_what_they_carry (idEdge : String) :
    (∀ (id : String) (active : Bool) (kind : Incoming) (topic : String),
      filterMatches (kind.filter (.newEmpty idEdge) (.new id active)).topic topic = true →
      classify topic = some kind ∧
        ∀ slice payload, decodeTopic slice topic payload = kind.decode slice payload) ∧
    ∀ (id id' : String) (active active' : Bool) (kind : Incoming),
      ∀ topic ∈ outbound (.newEmpty idEdge) (.new id active),
        filterMatches (kind.filter (.newEmpty idEdge) (.new id' active')).topic topic = false := by
  constructor
  · intro id active kind topic h
    obtain ⟨path, hpath⟩ := filter_topic idEdge id active kind
    rw [hpath] at h
    obtain ⟨ls, hls⟩ := levels_of_filterMatches (plain_level kind) (named_level kind) h
    have hkind : classify topic = some kind := (classify_of_levels hls).trans (classify_level kind)
    refine ⟨hkind, fun slice payload => ?_⟩
    unfold decodeTopic
    rw [hkind]
    rfl
  · intro id id' active active' kind topic h
    obtain ⟨path, hpath⟩ := filter_topic idEdge id' active' kind
    obtain ⟨path', level, rfl, hplain, hother⟩ := outbound_topic h
    rw [hpath]
    exact filterMatches_eq_false (plain_level kind) (named_level kind) hplain (hother kind)

section Published

variable {idEdge : String} {m : NetworkManager} {msg : HubMessage}

theorem network_outbound (hm : m.Formed idEdge) {id : String} {n : Network}
    (hn : m.networks.lookup id = some n) {topic : String}
    (h : topic ∈ outbound (.newEmpty idEdge) n) :
    ∃ id active, topic ∈ outbound (.newEmpty idEdge) (.new id active) := by
  refine ⟨id, n.active, ?_⟩
  rw [← hm.networks id n hn]
  exact h

theorem getTopic_outbound (hm : m.Formed idEdge) {t : Topic}
    (h : getTopicToSendMsgToHub m msg = some t) :
    ∃ id active, t.topic ∈ outbound (.newEmpty idEdge) (.new id active) := by
  cases msg <;> simp only [getTopicToSendMsgToHub, reduceCtorEq] at h
  all_goals
    obtain ⟨n, hn, rfl⟩ := Option.map_eq_some_iff.mp h
    exact network_outbound hm hn (by simp [outbound])

theorem resolveStaticTopic_outbound (hm : m.Formed idEdge)
    (hedge : m.edgeTopics = (NetworkManager.newEmpty idEdge).edgeTopics) {t : Topic} {retain : Bool}
    (h : resolveStaticTopic m msg = some (t, retain)) :
    ∃ id active, t.topic ∈ outbound (.newEmpty idEdge) (.new id active) := by
  simp only [NetworkManager.edgeTopics, List.cons.injEq] at hedge
  obtain ⟨hhandshake, hstate, hheartbeat, -, hack, -⟩ := hedge
  cases msg with
  | activeHub active =>
    obtain ⟨n, hn, heq⟩ := Option.map_eq_some_iff.mp h
    have hactive : getTopicToSendMsgToHub m (.activeHub active) = some t :=
      Option.map_eq_some_iff.mpr ⟨n, hn, (Prod.mk.inj heq).1⟩
    exact getTopic_outbound hm hactive
  | _ =>
    simp only [resolveStaticTopic, Option.some.injEq, Prod.mk.injEq, reduceCtorEq] at h
    try
      obtain ⟨rfl, -⟩ := h
      refine ⟨"", true, ?_⟩
      simp [outbound, hhandshake, hstate, hheartbeat, hack]

/-- Whatever `network_admin` takes, `msg_to_hub` publishes to these topics alone. -/
theorem published_outbound {t : List (NetworkManager × AdminInput)}
    (run : (adminMachine idEdge).Run t m) {state : LocalStatus} {out : SerializedMessage}
    (h : msgToHub m state (.toHub msg) = some out) :
    ∃ id active, out.topic ∈ outbound (.newEmpty idEdge) (.new id active) := by
  obtain ⟨hformed, hedge⟩ := topics_of_run run
  unfold msgToHub at h
  cases state with
  | disconnected => cases h
  | connected =>
    rcases hstatic : resolveStaticTopic m msg with _ | ⟨topic, retain⟩ <;>
      simp only [hstatic] at h
    · obtain ⟨topic, htopic, rfl⟩ := Option.map_eq_some_iff.mp h
      exact getTopic_outbound hformed htopic
    · rw [← Option.some.inj h]
      exact resolveStaticTopic_outbound hformed hedge hstatic

end Published

end EdgeGateway.Message
