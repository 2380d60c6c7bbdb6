import QuietRoute.Monitor.NetworkMonitor
import QuietRoute.Network.TravelTimes

/-! What a sequence of messages about passengers does to the counts of the network. -/
namespace QuietRoute

/-- The station and the type of a passenger event, as the message has them. -/
def decodeEvent (libs : Libraries) (msg : Bytes) : Option (Id × Bytes) := do
  let src ← libs.json.parse msg
  let stationId ← src.stringAt (ascii "station_id")
  let type ← src.stringAt (ascii "passenger_event")
  let datetimeZ ← src.stringAt (ascii "datetime")
  if libs.parseDatetime datetimeZ.dropLast then return (stationId,type) else none

def eventOf (decoded : Id × Bytes) : PassengerEvent :=
  ⟨decoded.1,if decoded.2 = ascii "in" then .enter else .exit⟩

theorem fromJson_eq_decodeEvent (libs : Libraries) (msg : Bytes) :
    (libs.json.parse msg >>= PassengerEvent.fromJson libs.parseDatetime) =
      (decodeEvent libs msg).map eventOf := by
  cases hparse : libs.json.parse msg with
  | none => simp [decodeEvent,hparse]
  | some src =>
    simp only [decodeEvent,hparse,Option.bind_eq_bind,Option.bind_some,PassengerEvent.fromJson]
    cases src.stringAt (ascii "station_id") with
    | none => rfl
    | some stationId =>
      cases src.stringAt (ascii "passenger_event") with
      | none => rfl
      | some type =>
        cases src.stringAt (ascii "datetime") with
        | none => rfl
        | some datetimeZ =>
          simp only [Option.bind_some]
          split_ifs with hdatetime hin
          · rw [Option.pure_def,Option.pure_def,Option.map_some,eventOf,if_pos hin]
          · rw [Option.pure_def,Option.pure_def,Option.map_some,eventOf,if_neg hin]
          · rfl

/-- A message with an event of a known station that is neither `in` nor `out`. -/
def Misread (libs : Libraries) (nw : TransportNetwork) (msg : Bytes) : Prop :=
  ∃ S type, decodeEvent libs msg = some (S,type) ∧ (nw.getStation S).isSome ∧
    type ≠ ascii "in" ∧ type ≠ ascii "out"

/-- A message with an event of a known station that is `in` or `out`. -/
def Recognized (libs : Libraries) (nw : TransportNetwork) (msg : Bytes) : Prop :=
  ∃ S, (nw.getStation S).isSome ∧
    (decodeEvent libs msg = some (S,ascii "in") ∨ decodeEvent libs msg = some (S,ascii "out"))

def changeOf (libs : Libraries) (msg : Bytes) (S : Id) : ℤ :=
  match decodeEvent libs msg with
  | none => 0
  | some (S',type) => if S' = S then if type = ascii "in" then 1 else -1 else 0

theorem changeOf_eq_zero {libs : Libraries} {msg : Bytes} {S : Id}
    (h : ∀ S' type, decodeEvent libs msg = some (S',type) → S' ≠ S) : changeOf libs msg S = 0 := by
  cases hdecode : decodeEvent libs msg with
  | none => simp [changeOf,hdecode]
  | some decoded =>
    obtain ⟨S',type⟩ := decoded
    simp [changeOf,hdecode,h S' type hdecode]

theorem unknown_of_not_recognized {libs : Libraries} {nw : TransportNetwork} {msg : Bytes}
    (hgood : ¬Misread libs nw msg) (hunrec : ¬Recognized libs nw msg) {S : Id} {type : Bytes}
    (hdecode : decodeEvent libs msg = some (S,type)) : ¬(nw.getStation S).isSome := by
  intro hS
  by_cases hin : type = ascii "in"
  · exact hunrec ⟨S,hS,Or.inl (hin ▸ hdecode)⟩
  · by_cases hout : type = ascii "out"
    · exact hunrec ⟨S,hS,Or.inr (hout ▸ hdecode)⟩
    · exact hgood ⟨S,type,hdecode,hS,hin,hout⟩

theorem Misread.not_recognized {libs : Libraries} {nw : TransportNetwork} {msg : Bytes}
    (h : Misread libs nw msg) : ¬Recognized libs nw msg := by
  obtain ⟨S,type,hdecode,-,hin,hout⟩ := h
  rintro ⟨S',-,hrec | hrec⟩
  · rw [hdecode] at hrec
    exact hin (Prod.mk.inj (Option.some.inj hrec)).2
  · rw [hdecode] at hrec
    exact hout (Prod.mk.inj (Option.some.inj hrec)).2

namespace TransportNetwork

theorem isSome_getStation_of_getPassengerCount {nw : TransportNetwork} {S : Id} {n : ℤ}
    (h : nw.getPassengerCount S = some n) : (nw.getStation S).isSome := by
  obtain ⟨node,hnode,-⟩ := Option.map_eq_some_iff.mp h
  rw [hnode]
  rfl

theorem getPassengerCount_recordPassengerEvent (nw : TransportNetwork) (S' : Id) (type : Bytes)
    (S : Id) : (nw.recordPassengerEvent (eventOf (S',type))).2.getPassengerCount S =
      (nw.getPassengerCount S).map
        (· + if S' = S then if type = ascii "in" then 1 else -1 else 0) := by
  rw [recordPassengerEvent]
  by_cases hknown : (nw.getStation S').isNone
  · rw [if_pos (show (nw.getStation (eventOf (S',type)).stationId).isNone from hknown)]
    by_cases heq : S' = S
    · have hnone : nw.getPassengerCount S = none := by
        rw [getPassengerCount,← heq,Option.isNone_iff_eq_none.mp hknown]
        rfl
      rw [hnone]
      rfl
    · simp [heq]
  · rw [if_neg (show ¬(nw.getStation (eventOf (S',type)).stationId).isNone from hknown)]
    simp only [getPassengerCount,getStation,eventOf,UnorderedMap.find_modify]
    by_cases heq : S' = S
    · by_cases hin : type = ascii "in" <;> simp [heq,hin,Function.comp_def]
    · simp [heq,Function.comp_def]

end TransportNetwork

namespace NetworkMonitor

variable {Session : Type} {libs : Libraries}

def ingest (libs : Libraries) (monitor : NetworkMonitor Session) (payloads : List Bytes) :
    NetworkMonitor Session := payloads.foldl (onNetworkEventsMessage libs) monitor

theorem ingest_concat (monitor : NetworkMonitor Session) (payloads : List Bytes) (msg : Bytes) :
    monitor.ingest libs (payloads ++ [msg]) =
      (monitor.ingest libs payloads).onNetworkEventsMessage libs msg :=
  List.foldl_concat _ _ _ _

theorem getPassengerCount_message (monitor : NetworkMonitor Session) (msg : Bytes) (S : Id) :
    (monitor.onNetworkEventsMessage libs msg).network.getPassengerCount S =
      (monitor.network.getPassengerCount S).map (· + changeOf libs msg S) := by
  rw [onNetworkEventsMessage,fromJson_eq_decodeEvent]
  cases hdecode : decodeEvent libs msg with
  | none => simp [changeOf,hdecode]
  | some decoded =>
    obtain ⟨S',type⟩ := decoded
    simp only [changeOf,hdecode]
    exact monitor.network.getPassengerCount_recordPassengerEvent S' type S

theorem isSome_getStation_message (monitor : NetworkMonitor Session) (msg : Bytes) (S : Id) :
    ((monitor.onNetworkEventsMessage libs msg).network.getStation S).isSome =
      (monitor.network.getStation S).isSome := by
  rw [onNetworkEventsMessage]
  split
  · rfl
  · exact TransportNetwork.isSome_getStation_recordPassengerEvent _ _ S

theorem lastErrorCode_message (monitor : NetworkMonitor Session) (msg : Bytes) :
    (monitor.onNetworkEventsMessage libs msg).lastErrorCode = .kOk ↔
      ∃ S type, decodeEvent libs msg = some (S,type) ∧ (monitor.network.getStation S).isSome := by
  rw [onNetworkEventsMessage,fromJson_eq_decodeEvent]
  cases hdecode : decodeEvent libs msg with
  | none => simp
  | some decoded =>
    obtain ⟨S,type⟩ := decoded
    have hguard : (monitor.network.getStation (eventOf (S,type)).stationId) =
        monitor.network.getStation S := rfl
    cases hstation : monitor.network.getStation S with
    | none => simp [TransportNetwork.recordPassengerEvent,hguard,hstation]
    | some node => simp [TransportNetwork.recordPassengerEvent,hguard,hstation]

theorem getPassengerCount_ingest (monitor : NetworkMonitor Session) (payloads : List Bytes)
    (S : Id) : (monitor.ingest libs payloads).network.getPassengerCount S =
      (monitor.network.getPassengerCount S).map
        (· + (payloads.map fun msg => changeOf libs msg S).sum) := by
  induction payloads using List.reverseRecOn with
  | nil => simp [ingest]
  | append_singleton payloads msg ih =>
    rw [ingest_concat,getPassengerCount_message,ih,Option.map_map]
    congr 1
    funext n
    simp [add_assoc]

theorem isSome_getStation_ingest (monitor : NetworkMonitor Session) (payloads : List Bytes)
    (S : Id) : ((monitor.ingest libs payloads).network.getStation S).isSome =
      (monitor.network.getStation S).isSome := by
  induction payloads using List.reverseRecOn with
  | nil => rfl
  | append_singleton payloads msg ih => rw [ingest_concat,isSome_getStation_message,ih]

/-- Without misread messages, a count changes by the number of messages `in` and `out`. -/
theorem sum_changeOf {nw : TransportNetwork} {S : Id} (hS : (nw.getStation S).isSome)
    {payloads : List Bytes} (h : ∀ msg ∈ payloads, ¬Misread libs nw msg) :
    (payloads.map fun msg => changeOf libs msg S).sum =
      payloads.countP (fun msg => decodeEvent libs msg = some (S,ascii "in")) -
        payloads.countP (fun msg => decodeEvent libs msg = some (S,ascii "out")) := by
  have hdiff : ascii "out" ≠ ascii "in" := by decide
  induction payloads with
  | nil => rfl
  | cons msg payloads ih =>
    have hrest := ih fun msg hmsg => h msg (List.mem_cons_of_mem _ hmsg)
    rw [List.map_cons,List.sum_cons,hrest,List.countP_cons,List.countP_cons]
    -- the first message is about another station, or is `in`, or is `out`
    have hfirst : changeOf libs msg S = (if decodeEvent libs msg = some (S,ascii "in") then 1 else 0) -
        if decodeEvent libs msg = some (S,ascii "out") then 1 else 0 := by
      cases hdecode : decodeEvent libs msg with
      | none => simp [changeOf,hdecode]
      | some decoded =>
        obtain ⟨S',type⟩ := decoded
        by_cases heq : S' = S
        · by_cases hin : type = ascii "in"
          · simp [changeOf,hdecode,heq,hin,hdiff.symm]
          · have hout : type = ascii "out" := by
              by_contra hout
              exact h msg List.mem_cons_self ⟨S',type,hdecode,heq ▸ hS,hin,hout⟩
            simp [changeOf,hdecode,heq,hout,hdiff]
        · simp [changeOf,hdecode,heq]
    rw [hfirst]
    simp only [decide_eq_true_eq]
    push_cast
    split_ifs <;> ring

/-- The counts follow the messages exactly, and a message that is not recognized changes no count and
leaves an error. -/
structure IngestsExactly (libs : Libraries) (monitor : NetworkMonitor Session)
    (payloads : List Bytes) : Prop where
  counts : ∀ S n, monitor.network.getPassengerCount S = some n →
    (monitor.ingest libs payloads).network.getPassengerCount S = some (n +
      (payloads.countP (fun msg => decodeEvent libs msg = some (S,ascii "in")) -
        payloads.countP (fun msg => decodeEvent libs msg = some (S,ascii "out"))))
  rejected : ∀ before msg after, payloads = before ++ msg::after →
    ¬Recognized libs monitor.network msg →
      (∀ S, (monitor.ingest libs (before ++ [msg])).network.getPassengerCount S =
        (monitor.ingest libs before).network.getPassengerCount S) ∧
          (monitor.ingest libs (before ++ [msg])).lastErrorCode ≠ .kOk

/-- Exactly the messages with an event that is neither `in` nor `out` go wrong. -/
theorem ingestsExactly_iff (libs : Libraries) (monitor : NetworkMonitor Session)
    (payloads : List Bytes) : IngestsExactly libs monitor payloads ↔
      ∀ msg ∈ payloads, ¬Misread libs monitor.network msg := by
  constructor
  · intro h msg hmsg hmisread
    obtain ⟨before,after,rfl⟩ := List.append_of_mem hmsg
    refine (h.rejected before msg after rfl hmisread.not_recognized).2 ?_
    obtain ⟨S,type,hdecode,hS,-⟩ := hmisread
    rw [ingest_concat,lastErrorCode_message]
    exact ⟨S,type,hdecode,by rwa [isSome_getStation_ingest]⟩
  · refine fun h => ⟨fun S n hn => ?_,?_⟩
    · have hS := TransportNetwork.isSome_getStation_of_getPassengerCount hn
      rw [getPassengerCount_ingest,hn,Option.map_some,sum_changeOf hS h]
    · rintro before msg after rfl hunrec
      have hgood := h msg (List.mem_append_right before List.mem_cons_self)
      refine ⟨fun S => ?_,?_⟩
      · rw [ingest_concat,getPassengerCount_message]
        cases hcount : (monitor.ingest libs before).network.getPassengerCount S with
        | none => rfl
        | some n =>
          have hS := TransportNetwork.isSome_getStation_of_getPassengerCount hcount
          rw [isSome_getStation_ingest] at hS
          have hzero : changeOf libs msg S = 0 := by
            refine changeOf_eq_zero fun S' type hdecode heq => ?_
            exact unknown_of_not_recognized hgood hunrec hdecode (heq ▸ hS)
          rw [hzero,Option.map_some,add_zero]
      · rw [ingest_concat,ne_eq,lastErrorCode_message]
        rintro ⟨S,type,hdecode,hS⟩
        rw [isSome_getStation_ingest] at hS
        exact unknown_of_not_recognized hgood hunrec hdecode hS

/-- Somebody who boards a train at `A`. -/
def boarding : Bytes :=
  ascii "\x7b\"datetime\":\"2020-11-01T07:18:50Z\",\"passenger_event\":\"boarding\",\"station_id\":\"A\"\x7d"

def decodingBoarding : Libraries where
  std := .simple
  json := ⟨fun text => if text = boarding then some (.object
      [(ascii "datetime",.string (ascii "2020-11-01T07:18:50Z")),
        (ascii "passenger_event",.string (ascii "boarding")),
        (ascii "station_id",.string (ascii "A"))]) else none,fun _ => none⟩
  parseDatetime text := text = ascii "2020-11-01T07:18:50"
  ids := .simple

/-- The message counts as a passenger who leaves `A`, and no error is left. -/
theorem boarding_counts : ¬∀ (libs : Libraries) (monitor : NetworkMonitor ℕ) (payloads : List Bytes),
    IngestsExactly libs monitor payloads := by
  intro hclaim
  let monitor : NetworkMonitor ℕ :=
    started [] (TransportNetwork.empty.addStation ⟨ascii "A",[]⟩).2 ⟨0,0,1⟩
  have hcount := (hclaim decodingBoarding monitor [boarding]).counts (ascii "A") 0 (by decide +kernel)
  revert hcount
  decide +kernel

end NetworkMonitor
end QuietRoute
