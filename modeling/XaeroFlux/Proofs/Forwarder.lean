import XaeroFlux.Forwarder
import XaeroFlux.Proofs.Forwarding

/-!
# What Iggy gets

A turn changes the connection through `send_raw_event` or not at all (`receive_of_some`,
`receive_of_none`), so whether the loop is connected is a matter of the last connect that went well
and the last message refused (`client_of_run`). What is put to Iggy is, in its order, some of what
was converted, and the counters count it.
-/

namespace XaeroFlux

namespace IggyConnection

variable {c : IggyConnection} {answer : Except String Unit} {a : ConnectAnswer}

/-- `connect` gets to its end. -/
def ConnectAnswer.connects (a : ConnectAnswer) : Bool :=
  a.build.isOk && a.connect.isOk && a.streamId.isOk && a.topicId.isOk

theorem connect_snd (he : c.enabled = true) :
    (c.connect a).2 = if a.connects then { c with client := true, lastError := none } else c := by
  obtain ⟨build, connect, streamId, topicId⟩ := a
  unfold IggyConnection.connect ConnectAnswer.connects
  rw [he]
  rcases build with _ | _ <;> rcases connect with _ | _ <;> rcases streamId with _ | _ <;>
    rcases topicId with _ | _ <;> rfl

/-- An event is sent to no one, or refused, or put to Iggy, which takes it or does not. -/
theorem sendRawEvent_cases (c : IggyConnection) (answer : Except String Unit) :
    c.enabled = false ∧ c.sendRawEvent answer = (.ok (), c)
      ∨ c.enabled = true ∧ c.client = false ∧ c.sendRawEvent answer =
          (.error "Not connected to Iggy", { c with lastError := some "Not connected" })
      ∨ c.enabled = true ∧ c.client = true ∧ answer = .ok () ∧ c.sendRawEvent answer =
          (.ok (), { c with messagesSent := c.messagesSent + 1, lastError := none })
      ∨ c.enabled = true ∧ c.client = true ∧ ∃ e, answer = .error e ∧ c.sendRawEvent answer =
          (.error ("Iggy send error: " ++ e),
            { c with lastError := some ("Iggy send error: " ++ e), client := false }) := by
  unfold sendRawEvent
  cases c.enabled
  · exact .inl ⟨rfl, rfl⟩
  · cases c.client
    · exact .inr (.inl ⟨rfl, rfl, rfl⟩)
    · rcases answer with e | ⟨⟩
      · exact .inr (.inr (.inr ⟨rfl, rfl, e, rfl, rfl⟩))
      · exact .inr (.inr (.inl ⟨rfl, rfl, rfl, rfl⟩))

end IggyConnection

namespace EventLoop

variable {fromStr : String → Option NetworkEvent} {s : EventLoop} {event : Event} {stamp : Stamp}

/-- The tracker after an event. -/
def tracked (fromStr : String → Option NetworkEvent) (s : EventLoop) (event : Event)
    (stamp : Stamp) : ScopeTracker :=
  match Bootstrap.netEvent fromStr event with
  | some e => (convertNetworkEvent stamp e (Bootstrap.groupIdFromTopic event) s.tracker).2
  | none => s.tracker

theorem receive_of_none (h : s.convert fromStr event stamp = none) (answer : Except String Unit) :
    (s.receive fromStr false event stamp answer).state = { s with
      tracker := s.tracked fromStr event stamp
      eventsReceived := s.eventsReceived + 1 } := by
  by_cases hcut : (short (Bootstrap.groupIdFromTopic event)).isSome
  · have hnet : Bootstrap.netEvent fromStr event = fromStr event.payload := if_pos hcut
    unfold convert at h
    unfold receive tracked
    rw [hnet] at h ⊢
    rcases hparse : fromStr event.payload with _ | e <;> rw [hparse] at h
    · simp
    · rw [Option.bind_some] at h
      rcases hc : convertNetworkEvent stamp e (Bootstrap.groupIdFromTopic event) s.tracker with
        ⟨_ | r, tracker⟩
      · simp [hcut, hc]
      · rw [hc] at h
        simp at h
  · have hnet : Bootstrap.netEvent fromStr event = none := if_neg hcut
    unfold receive tracked
    rw [hnet]
    rcases fromStr event.payload with _ | e
    · simp
    · simp [hcut]

theorem receive_of_some {r : RawEvent} (h : s.convert fromStr event stamp = some r)
    (answer : Except String Unit) :
    (s.receive fromStr false event stamp answer).state = {
      tracker := s.tracked fromStr event stamp
      iggy := (s.iggy.sendRawEvent answer).2
      eventsReceived := s.eventsReceived + 1
      eventsConverted := s.eventsConverted + 1
      eventsForwarded := s.eventsForwarded
        + if (s.iggy.sendRawEvent answer).1.isOk then 1 else 0 } := by
  have hcut : (short (Bootstrap.groupIdFromTopic event)).isSome := by
    by_contra hcut
    rw [convert, Bootstrap.netEvent, if_neg hcut] at h
    simp at h
  have hnet : Bootstrap.netEvent fromStr event = fromStr event.payload := if_pos hcut
  unfold convert at h
  unfold receive tracked
  rw [hnet] at h ⊢
  rcases hparse : fromStr event.payload with _ | e <;> rw [hparse] at h
  · simp at h
  · rw [Option.bind_some] at h
    rcases hc : convertNetworkEvent stamp e (Bootstrap.groupIdFromTopic event) s.tracker with
      ⟨_ | r', tracker⟩ <;> rw [hc] at h
    · simp at h
    · simp only [hcut, hc, if_true]
      rcases hs : s.iggy.sendRawEvent answer with ⟨_ | _, iggy⟩
      · simp [Except.isOk, Except.toBool]
      · simp only [Except.isOk, Except.toBool, if_true]
        split_ifs <;> rfl

/-- Whether an event is converted is a matter of the event. -/
def converts (fromStr : String → Option NetworkEvent) (event : Event) : Bool :=
  ((Bootstrap.netEvent fromStr event).bind NetworkEvent.forwardedId).isSome

theorem convert_isSome (s : EventLoop) (event : Event) (stamp : Stamp) :
    (s.convert fromStr event stamp).isSome = converts fromStr event := by
  unfold convert converts
  rcases Bootstrap.netEvent fromStr event with _ | e
  · rfl
  · rw [Option.bind_some, Option.bind_some, ← convertNetworkEvent_externalId stamp e
      (Bootstrap.groupIdFromTopic event) s.tracker, Option.isSome_map]

theorem retry_iggy (a : IggyConnection.ConnectAnswer) : (s.retry a).iggy =
    if s.iggy.enabled ∧ s.iggy.client = false ∧ a.connects then
      { s.iggy with client := true, lastError := none }
    else s.iggy := by
  unfold retry
  by_cases hdown : s.iggy.enabled = true ∧ (!s.iggy.client) = true
  · have hclient : s.iggy.client = false := by simpa using hdown.2
    rw [if_pos hdown]
    simp only [IggyConnection.connect_snd hdown.1, hdown.1, hclient, true_and]
  · rw [if_neg hdown, if_neg fun h => hdown ⟨h.1, by simp [h.2.1]⟩]

end EventLoop

namespace Forwarder

variable {fromStr : String → Option NetworkEvent} {s s' : Forwarder} {event : Event} {stamp : Stamp}
  {answer : Except String Unit} {a : IggyConnection.ConnectAnswer} {enabled : Bool}
  {acts : List Act}

/-! ## What a step does -/

/-- A turn whose event is not converted, and one whose event is. -/
theorem step_receive (h : step fromStr s (.receive event stamp answer) = some s') :
    s'.loop.eventsReceived = s.loop.eventsReceived + 1
      ∧ (s.loop.convert fromStr event stamp = none
          ∧ s'.loop.iggy = s.loop.iggy ∧ s'.converted = s.converted ∧ s'.sent = s.sent
          ∧ s'.loop.eventsConverted = s.loop.eventsConverted
          ∧ s'.loop.eventsForwarded = s.loop.eventsForwarded
        ∨ ∃ r, s.loop.convert fromStr event stamp = some r
          ∧ s'.loop.iggy = (s.loop.iggy.sendRawEvent answer).2
          ∧ s'.converted = s.converted ++ [(event.source, r)]
          ∧ s'.sent = s.sent ++ (s.loop.iggy.messages r).map (fun m => (m, answer))
          ∧ s'.loop.eventsConverted = s.loop.eventsConverted + 1
          ∧ s'.loop.eventsForwarded = s.loop.eventsForwarded
            + if (s.loop.iggy.sendRawEvent answer).1.isOk then 1 else 0) := by
  unfold step at h
  split_ifs at h
  rw [← Option.some.inj h]
  rcases hc : s.loop.convert fromStr event stamp with _ | r
  · have hturn := EventLoop.receive_of_none hc answer
    refine ⟨by rw [hturn], .inl ⟨rfl, by rw [hturn], ?_, ?_, by rw [hturn], by rw [hturn]⟩⟩ <;>
      simp
  · have hturn := EventLoop.receive_of_some hc answer
    refine ⟨by rw [hturn], .inr ⟨r, rfl, by rw [hturn], ?_, ?_, by rw [hturn], by rw [hturn]⟩⟩ <;>
      simp

theorem step_retry (h : step fromStr s (.retry a) = some s') :
    s' = { s with loop := s.loop.retry a } := by
  unfold step at h
  split_ifs at h
  exact (Option.some.inj h).symm

theorem step_print (h : step fromStr s .print = some s') : s' = s := by
  unfold step at h
  split_ifs at h
  exact (Option.some.inj h).symm

theorem enabled_step {act : Act} (h : step fromStr s act = some s') :
    s'.loop.iggy.enabled = s.loop.iggy.enabled := by
  cases act with
  | receive event stamp answer =>
    obtain ⟨-, ⟨-, higgy, -⟩ | ⟨r, -, higgy, -⟩⟩ := step_receive h
    · rw [higgy]
    · rw [higgy]
      obtain ⟨-, hs⟩ | ⟨-, -, hs⟩ | ⟨-, -, -, hs⟩ | ⟨-, -, e, -, hs⟩ :=
        IggyConnection.sendRawEvent_cases s.loop.iggy answer <;> rw [hs]
  | retry a =>
    rw [step_retry h]
    simp only [EventLoop.retry_iggy]
    split_ifs <;> rfl
  | print => rw [step_print h]

/-! ## The connection -/

/-- What an act tells of the connection: that it is made, or that it is lost. -/
def signal (fromStr : String → Option NetworkEvent) : Act → Option Bool
  | .receive event _ answer =>
    if EventLoop.converts fromStr event ∧ !answer.isOk then some false else none
  | .retry a => if a.connects then some true else none
  | .print => none

/-- The last that was told of the connection is that it is made. -/
def linked (fromStr : String → Option NetworkEvent) (enabled : Bool)
    (a : IggyConnection.ConnectAnswer) (acts : List Act) : Bool :=
  enabled && ((acts.filterMap (signal fromStr)).getLast?.getD a.connects)

theorem start_iggy : (start enabled a).loop.iggy =
    { IggyConnection.new enabled with client := linked fromStr enabled a [] } := by
  cases enabled
  · rfl
  · rw [start, EventLoop.start]
    simp only [if_true]
    rw [IggyConnection.connect_snd rfl]
    cases h : a.connects <;> simp [linked, h, IggyConnection.new]

theorem linked_concat {act : Act} : linked fromStr enabled a (acts ++ [act]) =
    match signal fromStr act with
    | some up => enabled && up
    | none => linked fromStr enabled a acts := by
  unfold linked
  rw [List.filterMap_append, List.filterMap_cons, List.filterMap_nil]
  rcases signal fromStr act with _ | up
  · simp
  · simp

/-- The loop is connected exactly if Iggy is enabled and the last it was told is that it is. -/
theorem client_of_run (h : run fromStr (start enabled a) acts = some s) :
    s.loop.iggy.enabled = enabled ∧ s.loop.iggy.client = linked fromStr enabled a acts := by
  refine Machine.run_induction (P := fun acts s => s.loop.iggy.enabled = enabled
    ∧ s.loop.iggy.client = linked fromStr enabled a acts) ?_ ?_ h
  · rw [@start_iggy fromStr]
    exact ⟨rfl, rfl⟩
  intro acts s act s' _ ⟨henabled, hclient⟩ hstep
  refine ⟨(enabled_step hstep).trans henabled, ?_⟩
  rw [linked_concat]
  cases act with
  | receive event stamp answer =>
    obtain ⟨-, ⟨hnone, higgy, -⟩ | ⟨r, hsome, higgy, -⟩⟩ := step_receive hstep
    · have hnot : EventLoop.converts fromStr event = false := by
        rw [← EventLoop.convert_isSome s.loop event stamp, hnone]
        rfl
      rw [higgy, hclient]
      simp [signal, hnot]
    · have hconv : EventLoop.converts fromStr event = true := by
        rw [← EventLoop.convert_isSome s.loop event stamp, hsome]
        rfl
      rw [higgy]
      obtain ⟨hoff, hs⟩ | ⟨hon, hdown, hs⟩ | ⟨hon, hup, rfl, hs⟩ | ⟨hon, hup, e, rfl, hs⟩ :=
        IggyConnection.sendRawEvent_cases s.loop.iggy answer
      · have hoff : enabled = false := henabled.symm.trans hoff
        rw [hs, hclient]
        simp [linked, hoff, signal, hconv]
        split <;> simp
      · rw [hs]
        rw [hdown] at hclient
        rcases answer with e | ⟨⟩
        · simpa [signal, hconv, Except.isOk, Except.toBool] using hdown
        · simpa [signal, hconv, Except.isOk, Except.toBool, hdown] using hclient
      · rw [hs]
        simpa [signal, Except.isOk, Except.toBool] using hclient
      · rw [hs]
        simp [signal, hconv, Except.isOk, Except.toBool]
  | retry a' =>
    rw [step_retry hstep]
    simp only [EventLoop.retry_iggy, signal]
    rcases hcon : a'.connects
    · simpa using hclient
    · cases hup : s.loop.iggy.client <;> cases hon : s.loop.iggy.enabled <;>
        simp_all [linked]
  | print =>
    rw [step_print hstep]
    exact hclient

/-! ## What is put to Iggy -/

/-- What was put to Iggy is some of what was converted. -/
theorem sent_of_run (h : run fromStr (start enabled a) acts = some s) :
    ∃ put : List RawEvent, put.Sublist (s.converted.map Prod.snd)
      ∧ s.sent.map Prod.fst = put.map RawEvent.toVec := by
  refine Machine.run_induction (P := fun _ s => ∃ put : List RawEvent,
    put.Sublist (s.converted.map Prod.snd) ∧ s.sent.map Prod.fst = put.map RawEvent.toVec)
    ⟨[], List.Sublist.slnil, rfl⟩ ?_ h
  intro acts s act s' _ hput hstep
  obtain ⟨put, hsub, hput⟩ := hput
  cases act with
  | receive event stamp answer =>
    obtain ⟨-, ⟨-, -, hconverted, hsent, -⟩ | ⟨r, -, -, hconverted, hsent, -⟩⟩ := step_receive hstep
    · rw [hconverted, hsent]
      exact ⟨put, hsub, hput⟩
    · rw [hconverted, hsent, List.map_append, List.map_append, hput]
      unfold IggyConnection.messages
      split_ifs
      · exact ⟨put ++ [r], hsub.append (List.Sublist.refl _), by simp⟩
      · exact ⟨put, hsub.trans (List.sublist_append_left _ _), by simp⟩
  | retry a' =>
    rw [step_retry hstep]
    exact ⟨put, hsub, hput⟩
  | print =>
    rw [step_print hstep]
    exact ⟨put, hsub, hput⟩

/-- What the reader of the topic makes of a message. -/
def readMessage (payload : ByteArray) : Option RawEvent :=
  (Json.fromSlice payload).bind RawEvent.ofJson

theorem readMessage_toVec (r : RawEvent) : readMessage r.toVec = some r := by
  rw [readMessage, RawEvent.toVec, Json.fromSlice_toVec, Option.bind_some, RawEvent.ofJson_toJson]

/-- After any run the messages put to Iggy read as some of the events converted, in their order and
each once; and an event received next is put to Iggy exactly if it is converted, Iggy is enabled,
and of all connects that went well and events refused the last was a connect. -/
theorem delivered (h : run fromStr (start enabled a) acts = some s) :
    (∃ put : List RawEvent, put.Sublist (s.converted.map Prod.snd)
        ∧ s.sent.map (fun m => readMessage m.1) = put.map some)
      ∧ ∀ event stamp answer s', step fromStr s (.receive event stamp answer) = some s' →
        s'.sent = s.sent ++ if linked fromStr enabled a acts
          then (s.loop.convert fromStr event stamp).toList.map fun r => (r.toVec, answer)
          else [] := by
  obtain ⟨henabled, hclient⟩ := client_of_run h
  refine ⟨?_, fun event stamp answer s' hstep => ?_⟩
  · obtain ⟨put, hsub, hput⟩ := sent_of_run h
    refine ⟨put, hsub, ?_⟩
    have hread : s.sent.map (fun m => readMessage m.1)
        = (put.map RawEvent.toVec).map readMessage := by
      rw [← hput, List.map_map]
      rfl
    rw [hread, List.map_map]
    exact List.map_congr_left fun r _ => readMessage_toVec r
  · have hon : linked fromStr enabled a acts = true → enabled = true := by
      cases enabled <;> simp [linked]
    obtain ⟨-, ⟨hnone, -, -, hsent, -⟩ | ⟨r, hsome, -, -, hsent, -⟩⟩ := step_receive hstep
    · rw [hsent, hnone]
      simp
    · rw [hsent, hsome, IggyConnection.messages, henabled, hclient]
      by_cases hl : linked fromStr enabled a acts = true
      · rw [if_pos ⟨hon hl, hl⟩, if_pos hl]
        rfl
      · rw [if_neg fun h => hl h.2, if_neg hl]
        rfl

def reached : IggyConnection.ConnectAnswer := ⟨.ok (), .ok (), .ok (), .ok ()⟩

theorem delivered_chat : ∃ s', step Bootstrap.readPayload (start true reached)
      (.receive Bootstrap.chat.1 Bootstrap.chat.2.toStamp (.ok ())) = some s'
    ∧ s'.sent.map (fun m => (readMessage m.1).map RawEvent.content) = [some "hi"] := by
  obtain ⟨s', hstep⟩ : ∃ s', step Bootstrap.readPayload (start true reached)
    (.receive Bootstrap.chat.1 Bootstrap.chat.2.toStamp (.ok ())) = some s' := ⟨_, rfl⟩
  have hrun : run Bootstrap.readPayload (start true reached) [] = some (start true reached) := rfl
  refine ⟨s', hstep, ?_⟩
  have hlinked : linked Bootstrap.readPayload true reached [] = true := rfl
  have hconv : ∃ r, (start true reached).loop.convert Bootstrap.readPayload Bootstrap.chat.1
    Bootstrap.chat.2.toStamp = some r ∧ r.content = "hi" := ⟨_, rfl, rfl⟩
  obtain ⟨r, hr, hcontent⟩ := hconv
  rw [(delivered hrun).2 _ _ _ _ hstep, if_pos hlinked, hr]
  simp [start, readMessage_toVec, hcontent]

/-! ## The counters -/

/-- Iggy took the message. -/
def taken (m : ByteArray × Except String Unit) : Bool := m.2.isOk

def isReceive : Act → Bool
  | .receive _ _ _ => true
  | _ => false

/-- The counters count, in 64 bits. -/
structure Counts (enabled : Bool) (acts : List Act) (s : Forwarder) : Prop where
  received : s.loop.eventsReceived = .ofNat (acts.countP isReceive)
  converted : s.loop.eventsConverted = .ofNat s.converted.length
  messagesSent : s.loop.iggy.messagesSent = .ofNat (s.sent.countP taken)
  /-- With Iggy disabled, every event converted counts as forwarded. -/
  forwarded : s.loop.eventsForwarded =
    .ofNat (if enabled then s.sent.countP taken else s.converted.length)

theorem ofNat_succ (n : ℕ) : UInt64.ofNat n + 1 = UInt64.ofNat (n + 1) := by
  rw [UInt64.ofNat_add]
  rfl

/-- A turn that converts an event counts it once, and once more for each place that it got to. -/
theorem Counts.convert (hs : Counts enabled acts s) (hon : s.loop.iggy.enabled = enabled)
    {r : RawEvent} (hreceived : s'.loop.eventsReceived = s.loop.eventsReceived + 1)
    (higgy : s'.loop.iggy = (s.loop.iggy.sendRawEvent answer).2)
    (hconverted : s'.converted = s.converted ++ [(event.source, r)])
    (hsent : s'.sent = s.sent ++ (s.loop.iggy.messages r).map (fun m => (m, answer)))
    (hcount : s'.loop.eventsConverted = s.loop.eventsConverted + 1)
    (hforwarded : s'.loop.eventsForwarded = s.loop.eventsForwarded
      + if (s.loop.iggy.sendRawEvent answer).1.isOk then 1 else 0) :
    Counts enabled (acts ++ [Act.receive event stamp answer]) s' := by
  have hlen : s'.converted.length = s.converted.length + 1 := by rw [hconverted]; simp
  have hreceived' : s'.loop.eventsReceived
      = .ofNat ((acts ++ [Act.receive event stamp answer]).countP isReceive) := by
    rw [hreceived, hs.received, ofNat_succ, List.countP_append]
    rfl
  have hconverted' : s'.loop.eventsConverted = .ofNat s'.converted.length := by
    rw [hcount, hs.converted, ofNat_succ, hlen]
  unfold IggyConnection.messages at hsent
  obtain ⟨hoff, hsend⟩ | ⟨hon', hdown, hsend⟩ | ⟨hon', hup, rfl, hsend⟩
    | ⟨hon', hup, e, rfl, hsend⟩ :=
    IggyConnection.sendRawEvent_cases s.loop.iggy answer <;> rw [hsend] at higgy hforwarded
  · have henabled : enabled = false := hon.symm.trans hoff
    have hsame : s'.sent = s.sent := by rw [hsent, hoff]; simp
    refine ⟨hreceived', hconverted', by rw [higgy, hsame]; exact hs.messagesSent, ?_⟩
    rw [hforwarded, hs.forwarded, henabled, hlen]
    exact ofNat_succ _
  · have henabled : enabled = true := hon.symm.trans hon'
    have hsame : s'.sent = s.sent := by rw [hsent, hdown]; simp
    refine ⟨hreceived', hconverted', by rw [higgy, hsame]; exact hs.messagesSent, ?_⟩
    rw [hforwarded, hs.forwarded, henabled, hsame]
    exact UInt64.add_zero _
  · have henabled : enabled = true := hon.symm.trans hon'
    have htaken : s'.sent.countP taken = s.sent.countP taken + 1 := by
      rw [hsent, hon', hup, List.countP_append]
      rfl
    refine ⟨hreceived', hconverted', ?_, ?_⟩
    · rw [higgy, htaken, ← ofNat_succ, ← hs.messagesSent]
    · rw [hforwarded, hs.forwarded, henabled, htaken]
      exact ofNat_succ _
  · have henabled : enabled = true := hon.symm.trans hon'
    have htaken : s'.sent.countP taken = s.sent.countP taken := by
      rw [hsent, hon', hup, List.countP_append]
      rfl
    refine ⟨hreceived', hconverted', ?_, ?_⟩
    · rw [higgy, htaken]
      exact hs.messagesSent
    · rw [hforwarded, hs.forwarded, henabled, htaken]
      exact UInt64.add_zero _

theorem counts_of_run (h : run fromStr (start enabled a) acts = some s) :
    Counts enabled acts s := by
  refine Machine.run_induction (P := Counts enabled) ?_ ?_ h
  · have higgy := @start_iggy fromStr a enabled
    refine ⟨rfl, rfl, by rw [higgy]; rfl, ?_⟩
    cases enabled <;> rfl
  intro acts s act s' hrun hs hstep
  have hon := (client_of_run hrun).1
  cases act with
  | receive event stamp answer =>
    obtain ⟨hreceived, ⟨-, higgy, hconverted, hsent, hcount, hforwarded⟩
      | ⟨r, -, higgy, hconverted, hsent, hcount, hforwarded⟩⟩ := step_receive hstep
    · refine ⟨?_, ?_, ?_, ?_⟩
      · rw [hreceived, hs.received, ofNat_succ, List.countP_append]
        rfl
      · rw [hcount, hconverted]
        exact hs.converted
      · rw [higgy, hsent]
        exact hs.messagesSent
      · rw [hforwarded, hsent, hconverted]
        exact hs.forwarded
    · exact hs.convert hon hreceived higgy hconverted hsent hcount hforwarded
  | retry a' =>
    rw [step_retry hstep]
    have higgy : (s.loop.retry a').iggy.messagesSent = s.loop.iggy.messagesSent := by
      rw [EventLoop.retry_iggy]
      split_ifs <;> rfl
    have hrest : (s.loop.retry a').eventsReceived = s.loop.eventsReceived
        ∧ (s.loop.retry a').eventsConverted = s.loop.eventsConverted
        ∧ (s.loop.retry a').eventsForwarded = s.loop.eventsForwarded := by
      unfold EventLoop.retry
      split_ifs <;> exact ⟨rfl, rfl, rfl⟩
    refine ⟨?_, hrest.2.1.trans hs.converted, higgy.trans hs.messagesSent,
      hrest.2.2.trans hs.forwarded⟩
    rw [List.countP_append]
    exact hrest.1.trans hs.received
  | print =>
    rw [step_print hstep]
    refine ⟨?_, hs.converted, hs.messagesSent, hs.forwarded⟩
    rw [List.countP_append]
    exact hs.received

/-! ## The heartbeat -/

/-- An event received that is converted. -/
def Converting (fromStr : String → Option NetworkEvent) : Act → Prop
  | .receive event _ _ => EventLoop.converts fromStr event = true
  | _ => False

/-- The last event converted was refused for this, by the loop or by Iggy. -/
def RefusedFor (fromStr : String → Option NetworkEvent) (enabled : Bool)
    (a : IggyConnection.ConnectAnswer) (acts : List Act) (reason : String) : Prop :=
  ∃ pre event stamp answer post, acts = pre ++ .receive event stamp answer :: post
    ∧ EventLoop.converts fromStr event = true ∧ (∀ act ∈ post, ¬ Converting fromStr act)
    ∧ (linked fromStr enabled a pre = false ∧ reason = "Not connected"
      ∨ linked fromStr enabled a pre = true
        ∧ ∃ e, answer = .error e ∧ reason = "Iggy send error: " ++ e)

theorem RefusedFor.concat {reason : String} (h : RefusedFor fromStr enabled a acts reason)
    {act : Act} (hact : ¬ Converting fromStr act) :
    RefusedFor fromStr enabled a (acts ++ [act]) reason := by
  obtain ⟨pre, event, stamp, answer, post, rfl, hconv, hpost, hreason⟩ := h
  refine ⟨pre, event, stamp, answer, post ++ [act], by simp, hconv, fun x hx => ?_, hreason⟩
  rcases List.mem_append.1 hx with hx | hx
  · exact hpost x hx
  · rwa [List.mem_singleton.1 hx]

/-- What is known of the last error. -/
structure Told (fromStr : String → Option NetworkEvent) (enabled : Bool)
    (a : IggyConnection.ConnectAnswer) (acts : List Act) (s : Forwarder) : Prop where
  up : s.loop.iggy.client = true → s.loop.iggy.lastError = none
  untried : s.converted = [] → s.loop.iggy.lastError = none
  down : enabled = true → s.loop.iggy.client = false → s.converted ≠ [] →
    ∃ reason, s.loop.iggy.lastError = some reason ∧ RefusedFor fromStr enabled a acts reason

/-- A step that leaves the connection and what was converted alone. -/
theorem Told.idle (hs : Told fromStr enabled a acts s) {act : Act} (hact : ¬ Converting fromStr act)
    (higgy : s'.loop.iggy = s.loop.iggy) (hconverted : s'.converted = s.converted) :
    Told fromStr enabled a (acts ++ [act]) s' := by
  refine ⟨by rw [higgy]; exact hs.up, by rw [higgy, hconverted]; exact hs.untried, ?_⟩
  rw [higgy, hconverted]
  intro hon hdown hne
  obtain ⟨reason, hreason, hrefused⟩ := hs.down hon hdown hne
  exact ⟨reason, hreason, hrefused.concat hact⟩

theorem told_of_run (h : run fromStr (start enabled a) acts = some s) :
    Told fromStr enabled a acts s := by
  refine Machine.run_induction (P := Told fromStr enabled a) ?_ ?_ h
  · have higgy := @start_iggy fromStr a enabled
    refine ⟨by rw [higgy]; intro _; rfl, by rw [higgy]; intro _; rfl, fun _ _ hne => ?_⟩
    exact absurd rfl hne
  intro acts s act s' hrun hs hstep
  obtain ⟨hon, hclient⟩ := client_of_run hrun
  cases act with
  | receive event stamp answer =>
    have hconv := @EventLoop.convert_isSome fromStr s.loop event stamp
    obtain ⟨-, ⟨hnone, higgy, hconverted, -⟩ | ⟨r, hsome, higgy, hconverted, -⟩⟩ :=
      step_receive hstep
    · rw [hnone] at hconv
      refine hs.idle (fun h => ?_) higgy hconverted
      rw [Converting, ← hconv] at h
      simp at h
    · rw [hsome] at hconv
      have hne : s'.converted ≠ [] := by rw [hconverted]; simp
      have hlast : ∀ reason, (linked fromStr enabled a acts = false ∧ reason = "Not connected"
          ∨ linked fromStr enabled a acts = true
            ∧ ∃ e, answer = .error e ∧ reason = "Iggy send error: " ++ e) →
          RefusedFor fromStr enabled a (acts ++ [.receive event stamp answer]) reason :=
        fun reason h => ⟨acts, event, stamp, answer, [], rfl, hconv.symm, by simp, h⟩
      rw [← hclient] at hlast
      obtain ⟨hoff, hsend⟩ | ⟨-, hdown, hsend⟩ | ⟨-, hup, -, hsend⟩ | ⟨-, hup, e, he, hsend⟩ :=
        IggyConnection.sendRawEvent_cases s.loop.iggy answer <;> rw [hsend] at higgy
      · refine ⟨by rw [higgy]; exact hs.up, fun h => absurd h hne, fun hon' => ?_⟩
        rw [← hon, hoff] at hon'
        simp at hon'
      · refine ⟨by rw [higgy]; simp [hdown], fun h => absurd h hne, fun _ _ _ => ?_⟩
        exact ⟨"Not connected", by rw [higgy], hlast _ (.inl ⟨hdown, rfl⟩)⟩
      · refine ⟨by rw [higgy]; simp, fun h => absurd h hne, fun hon' hdown' _ => ?_⟩
        rw [higgy] at hdown'
        simp [hup] at hdown'
      · refine ⟨by rw [higgy]; simp, fun h => absurd h hne, fun _ _ _ => ?_⟩
        exact ⟨_, by rw [higgy], hlast _ (.inr ⟨hup, e, he, rfl⟩)⟩
  | retry a' =>
    have hnot : ¬ Converting fromStr (.retry a') := id
    rw [step_retry hstep]
    by_cases hmade : s.loop.iggy.enabled = true ∧ s.loop.iggy.client = false ∧ a'.connects = true
    · have higgy : (s.loop.retry a').iggy
          = { s.loop.iggy with client := true, lastError := none } := by
        rw [EventLoop.retry_iggy, if_pos hmade]
      refine ⟨by rw [higgy]; intro _; rfl, by rw [higgy]; intro _; rfl, ?_⟩
      rw [higgy]
      simp
    · exact hs.idle hnot (by rw [EventLoop.retry_iggy, if_neg hmade]) rfl
  | print =>
    rw [step_print hstep]
    exact hs.idle id rfl rfl

theorem toString_ofNat (n : ℕ) : toString (UInt64.ofNat n) = toString (n % 2 ^ 64) := by
  show toString (UInt64.ofNat n).toNat = _
  rw [UInt64.toNat_ofNat']

/-- The line of a heartbeat that tells of so many events, counted in 64 bits, and this of Iggy. -/
def beat (received converted forwarded : ℕ) (iggy : String) : String :=
  "💓 Heartbeat | recv=" ++ toString (received % 2 ^ 64) ++ " conv=" ++ toString (converted % 2 ^ 64)
    ++ " fwd=" ++ toString (forwarded % 2 ^ 64) ++ " | Iggy: " ++ iggy

theorem Counts.heartbeat (hs : Counts enabled acts s) : s.loop.heartbeat =
    beat (acts.countP isReceive) s.converted.length
      (if enabled then s.sent.countP taken else s.converted.length) s.loop.iggy.status := by
  unfold EventLoop.heartbeat beat
  rw [hs.received, hs.converted, hs.forwarded, toString_ofNat, toString_ofNat, toString_ofNat]

/-- What a heartbeat prints, after any run. With Iggy disabled it says so, and tells of every event
converted as forwarded. With Iggy enabled it tells of as many forwarded as Iggy took messages, and
says that it is connected, with so many sent, exactly if it is; and if it is not, for what reason
the last event converted was refused, unless none was converted. -/
theorem heartbeat_of_run (h : run fromStr (start enabled a) acts = some s) :
    (enabled = false → s.loop.heartbeat =
        beat (acts.countP isReceive) s.converted.length s.converted.length "disabled")
      ∧ (enabled = true → linked fromStr enabled a acts = true → s.loop.heartbeat =
        beat (acts.countP isReceive) s.converted.length (s.sent.countP taken)
          ("connected (" ++ toString (s.sent.countP taken % 2 ^ 64) ++ " sent)"))
      ∧ (enabled = true → linked fromStr enabled a acts = false → ∃ reason, s.loop.heartbeat =
          beat (acts.countP isReceive) s.converted.length (s.sent.countP taken)
            ("disconnected: " ++ reason)
        ∧ (s.converted = [] ∧ reason = "unknown"
          ∨ s.converted ≠ [] ∧ RefusedFor fromStr enabled a acts reason)) := by
  obtain ⟨hon, hclient⟩ := client_of_run h
  have hcounts := counts_of_run h
  have htold := told_of_run h
  have hbeat := hcounts.heartbeat
  unfold IggyConnection.status at hbeat
  rw [hon, hclient, hcounts.messagesSent, toString_ofNat] at hbeat
  refine ⟨?_, ?_, ?_⟩
  · rintro rfl
    exact hbeat
  · rintro rfl hup
    rw [hup] at hbeat
    exact hbeat
  · rintro rfl hdown
    rw [hdown] at hbeat
    refine ⟨_, hbeat, ?_⟩
    by_cases hne : s.converted = []
    · rw [htold.untried hne]
      exact .inl ⟨hne, rfl⟩
    · obtain ⟨reason, hreason, hrefused⟩ := htold.down rfl (hclient.trans hdown) hne
      rw [hreason]
      exact .inr ⟨hne, hrefused⟩

/-- A message comes between two heartbeats. -/
def chatBetween : List Act :=
  [.print, .receive Bootstrap.chat.1 Bootstrap.chat.2.toStamp (.ok ()), .print]

/-- Iggy is down when the loop starts, and is not reached again before the message comes. -/
theorem heartbeat_of_run_chat : ∃ s reason,
    run Bootstrap.readPayload (start true { reached with connect := .error "refused" }) chatBetween
      = some s
    ∧ s.loop.heartbeat = beat 1 1 0 ("disconnected: " ++ reason)
    ∧ RefusedFor Bootstrap.readPayload true { reached with connect := .error "refused" } chatBetween
      reason := by
  obtain ⟨s, hs, hlen, htaken⟩ : ∃ s, run Bootstrap.readPayload
        (start true { reached with connect := .error "refused" }) chatBetween = some s
      ∧ s.converted.length = 1 ∧ s.sent.countP taken = 0 := ⟨_, rfl, rfl, rfl⟩
  obtain ⟨reason, hbeat, ⟨hnil, -⟩ | ⟨-, hrefused⟩⟩ := (heartbeat_of_run hs).2.2 rfl rfl
  · rw [hnil] at hlen
    cases hlen
  · rw [hlen, htaken] at hbeat
    exact ⟨s, reason, hs, hbeat, hrefused⟩

/-! ## What Iggy does not decide -/

/-- The loop without Iggy. -/
def toBootstrap (s : Forwarder) : Bootstrap where
  tracker := s.loop.tracker
  converted := s.converted
  alive := s.alive

/-- The events received, and what the clock and the generator of ids answered. -/
def received (acts : List Act) : List (Event × Stamp) :=
  acts.filterMap fun
    | .receive event stamp _ => some (event, stamp)
    | _ => none

/-- A turn is one of the loop without Iggy, in which what counts as sent is what was forwarded. -/
theorem step_toBootstrap (h : step fromStr s (.receive event stamp answer) = some s') :
    Bootstrap.step fromStr s.toBootstrap
      (event, ⟨stamp, (s.loop.iggy.sendRawEvent answer).1.isOk⟩) = some s'.toBootstrap := by
  unfold step at h
  split_ifs at h with halive
  rw [← Option.some.inj h]
  unfold Bootstrap.step
  rw [if_pos (show s.toBootstrap.alive = true from halive)]
  unfold Bootstrap.received toBootstrap EventLoop.receive EventLoop.convert Bootstrap.netEvent
  rcases fromStr event.payload with _ | e
  · simp [halive]
  by_cases hcut : (short (Bootstrap.groupIdFromTopic event)).isSome
  · simp only [hcut, if_true, Option.bind_some]
    rcases convertNetworkEvent stamp e (Bootstrap.groupIdFromTopic event) s.loop.tracker with
      ⟨_ | r, tracker⟩
    · simp [halive]
    · rcases hs : s.loop.iggy.sendRawEvent answer with ⟨_ | _, iggy⟩
      · simp [Except.isOk, Except.toBool, halive]
      · rcases hid : short r.externalId with _ | cut <;>
          simp [Except.isOk, Except.toBool, halive, hid]
  · simp [hcut]

/-- The loop refines the one without Iggy. -/
theorem refines (h : run fromStr (start enabled a) acts = some s) :
    ∃ bs : List (Event × Answer), Bootstrap.run fromStr .start bs = some s.toBootstrap
      ∧ bs.map (fun x => (x.1, x.2.toStamp)) = received acts := by
  refine Machine.run_induction (P := fun acts s => ∃ bs : List (Event × Answer),
    Bootstrap.run fromStr .start bs = some s.toBootstrap
      ∧ bs.map (fun x => (x.1, x.2.toStamp)) = received acts) ⟨[], rfl, rfl⟩ ?_ h
  intro acts s act s' _ hbs hstep
  obtain ⟨bs, hrun, hmap⟩ := hbs
  unfold received
  rw [List.filterMap_append, ← received, ← hmap]
  cases act with
  | receive event stamp answer =>
    refine ⟨bs ++ [_], Machine.run_concat.2 ⟨_, hrun, step_toBootstrap hstep⟩, ?_⟩
    simp
  | retry a' =>
    rw [step_retry hstep]
    have htracker : (s.loop.retry a').tracker = s.loop.tracker := by
      unfold EventLoop.retry
      split_ifs <;> rfl
    refine ⟨bs, ?_, by simp⟩
    rw [hrun, toBootstrap, toBootstrap, htracker]
  | print =>
    rw [step_print hstep]
    exact ⟨bs, hrun, by simp⟩

end Forwarder

/-- What is tracked and converted is a matter of the events received, the clock and the ids. -/
theorem Bootstrap.run_congr {fromStr : String → Option NetworkEvent} {s t : Bootstrap} :
    ∀ {as bs : List (Event × Answer)} {s₀ t₀ : Bootstrap},
      s₀.tracker = t₀.tracker → s₀.converted = t₀.converted →
      as.map (fun x => (x.1, x.2.toStamp)) = bs.map (fun x => (x.1, x.2.toStamp)) →
      run fromStr s₀ as = some s → run fromStr t₀ bs = some t →
        s.tracker = t.tracker ∧ s.converted = t.converted
  | [], [], s₀, t₀, htracker, hconverted, _, hs, ht => by
    obtain rfl := Machine.run_nil.1 hs
    obtain rfl := Machine.run_nil.1 ht
    exact ⟨htracker, hconverted⟩
  | [], _ :: _, _, _, _, _, hmap, _, _ => by simp at hmap
  | _ :: _, [], _, _, _, _, hmap, _, _ => by simp at hmap
  | (event, a) :: as, (event', b) :: bs, s₀, t₀, htracker, hconverted, hmap, hs, ht => by
    obtain ⟨hx, hrest⟩ := List.cons.inj hmap
    obtain ⟨rfl, hstamp⟩ := Prod.mk.inj hx
    obtain ⟨s₁, hs₁, hs'⟩ := Machine.run_cons.1 hs
    obtain ⟨t₁, ht₁, ht'⟩ := Machine.run_cons.1 ht
    have hnext : s₁.tracker = t₁.tracker ∧ s₁.converted = t₁.converted := by
      rcases he : netEvent fromStr event with _ | e
      · obtain ⟨hst, hsc⟩ := step_eq_none hs₁ he
        obtain ⟨htt, htc⟩ := step_eq_none ht₁ he
        rw [hst, hsc, htt, htc]
        exact ⟨htracker, hconverted⟩
      · obtain ⟨hst, hsc⟩ := step_eq_some hs₁ he
        obtain ⟨htt, htc⟩ := step_eq_some ht₁ he
        rw [hst, hsc, htt, htc, htracker, hconverted]
        refine ⟨rfl, ?_⟩
        simp only [show a.toStamp = b.toStamp from hstamp]
    exact run_congr hnext.1 hnext.2 hrest hs' ht'

namespace Forwarder

variable {fromStr : String → Option NetworkEvent} {s s' : Forwarder}
  {a a' : IggyConnection.ConnectAnswer} {enabled enabled' : Bool} {acts acts' : List Act}

/-- The loop with Iggy runs as the loop without it does on the events received, and two runs that
received the same events, whatever Iggy did and whether it was enabled, converted the same. -/
theorem converted_of_received (h : run fromStr (start enabled a) acts = some s) :
    (∃ bs : List (Event × Answer), Bootstrap.run fromStr .start bs = some s.toBootstrap
        ∧ bs.map (fun x => (x.1, x.2.toStamp)) = received acts)
      ∧ ∀ enabled' a' acts' s', run fromStr (start enabled' a') acts' = some s' →
        received acts' = received acts →
          s'.converted = s.converted ∧ s'.loop.tracker = s.loop.tracker := by
  refine ⟨refines h, fun enabled' a' acts' s' h' hsame => ?_⟩
  obtain ⟨bs, hbs, hmap⟩ := refines h
  obtain ⟨bs', hbs', hmap'⟩ := refines h'
  have hcongr := Bootstrap.run_congr rfl rfl ((hmap'.trans hsame).trans hmap.symm) hbs' hbs
  exact ⟨hcongr.2, hcongr.1⟩

/-- With Iggy disabled the same is converted. -/
theorem converted_of_received_chat : ∃ s s',
    run Bootstrap.readPayload (start true reached)
      [.receive Bootstrap.chat.1 Bootstrap.chat.2.toStamp (.error "gone")] = some s
    ∧ run Bootstrap.readPayload (start false reached)
      [.receive Bootstrap.chat.1 Bootstrap.chat.2.toStamp (.ok ())] = some s'
    ∧ s'.converted = s.converted := by
  obtain ⟨s, hs⟩ : ∃ s, run Bootstrap.readPayload (start true reached)
    [.receive Bootstrap.chat.1 Bootstrap.chat.2.toStamp (.error "gone")] = some s := ⟨_, rfl⟩
  obtain ⟨s', hs'⟩ : ∃ s', run Bootstrap.readPayload (start false reached)
    [.receive Bootstrap.chat.1 Bootstrap.chat.2.toStamp (.ok ())] = some s' := ⟨_, rfl⟩
  exact ⟨s, s', hs, hs', ((converted_of_received hs).2 _ _ _ _ hs' rfl).1⟩

end Forwarder

end XaeroFlux
