import QuietRoute.Network.LayoutFile
import QuietRoute.Network.TravelTimes

/-! Whether all edges between two stations have one travel time. Setting times keeps it so, and
adding routes does as long as they join no stations that have a time already. -/
namespace QuietRoute
namespace TransportNetwork

variable {nw nw' : TransportNetwork} {ok : Bool} {time : Sym2 Id → UInt32}

/-- The travel time is the same for all routes that connect two stations directly. -/
structure UniformTimes (nw : TransportNetwork) : Prop where
  same_time : ∀ S S', ∀ e ∈ nw.edgesFrom S, ∀ e' ∈ nw.edgesFrom S',
    s(S,e.nextStop) = s(S',e'.nextStop) → e.travelTime = e'.travelTime
  getTravelTime_comm : ∀ A B, nw.getTravelTime A B = nw.getTravelTime B A
  search_time : ∀ S, ∀ e ∈ nw.edgesFrom S, e.travelTime = nw.getTravelTime S e.nextStop

theorem Timed.search_time (h : nw.Timed time) {S : Id} {e : GraphEdge} (he : e ∈ nw.edgesFrom S) :
    e.travelTime = nw.getTravelTime S e.nextStop := by
  rw [h.travelTime_eq S e he,(h.getTravelTime_eq S e.nextStop).1 (Or.inl ⟨e,he,rfl⟩)]

theorem Timed.uniformTimes (h : nw.Timed time) : nw.UniformTimes where
  same_time S S' e he e' he' hpair := by
    rw [h.travelTime_eq S e he,h.travelTime_eq S' e' he',hpair]
  getTravelTime_comm := h.getTravelTime_comm
  search_time _ _ he := h.search_time he

theorem Timed.canonical (h : nw.Timed time) :
    ∃ time', nw.Timed time' ∧ ∀ A B, time' s(A,B) = nw.getTravelTime A B :=
  ⟨Sym2.lift ⟨nw.getTravelTime,h.getTravelTime_comm⟩,⟨fun _ _ he => h.search_time he,h.known⟩,
    fun _ _ => rfl⟩

/-- No route that the line adds joins stations with a travel time other than 0. -/
def FindsNoTime (nw : TransportNetwork) (line : Line) : Prop :=
  ∀ route ∈ nw.newRoutes line, ∀ A B, Hop route.stops A B → nw.getTravelTime A B = 0

theorem Timed.addLine (h : nw.Timed time) {line : Line} (hno : nw.FindsNoTime line)
    (hadd : nw.addLine line = some (ok,nw')) : ∃ time', nw'.Timed time' := by
  obtain ⟨time',htime,hget⟩ := h.canonical
  refine ⟨time',htime.extends (extends_addLine hadd) fun route hroute A B hhop => ?_⟩
  rw [hget]
  exact hno route hroute A B hhop

/-- The times stay uniform exactly if the line finds none on its way. -/
theorem addLine_uniformTimes_iff (h : nw.Timed time) {line : Line}
    (hadd : nw.addLine line = some (ok,nw')) : nw'.UniformTimes ↔ nw.FindsNoTime line := by
  constructor
  · intro huniform route hroute A B hhop
    have hext := extends_addLine hadd
    obtain ⟨new,hnew,hB,hzero⟩ := hext.added route hroute A B hhop
    by_cases hjoined : nw.Joined A B
    · rw [(h.getTravelTime_eq A B).1 hjoined,← hzero]
      rcases hjoined with ⟨e,he,rfl⟩ | ⟨e,he,rfl⟩
      · rw [← h.travelTime_eq A e he]
        exact huniform.same_time A A e (hext.kept A e he) new hnew (by rw [hB])
      · rw [Sym2.eq_swap,← h.travelTime_eq B e he]
        exact huniform.same_time B _ e (hext.kept B e he) new hnew (by rw [hB,Sym2.eq_swap])
    · exact (h.getTravelTime_eq A B).2 hjoined
  · intro hno
    obtain ⟨time',htime⟩ := h.addLine hno hadd
    exact htime.uniformTimes

/-! Runs. -/

inductive Operation
  | call (c : Call)
  | fromJson (src : Json)

/-- The network after an operation, also where that fails or throws. -/
def perform (nw : TransportNetwork) : Operation → Option TransportNetwork
  | .call c => (nw.run c).map Prod.snd
  | .fromJson src => (nw.fromJson src).map Prod.snd

/-- The networks of the runs in which every step meets a condition. -/
inductive RunsTo (condition : TransportNetwork → Operation → Prop) : TransportNetwork → Prop
  | empty : RunsTo condition empty
  | step {nw nw' : TransportNetwork} {operation : Operation} (h : RunsTo condition nw)
      (hcondition : condition nw operation) (hstep : nw.perform operation = some nw') :
      RunsTo condition nw'

/-- The lines of a document one after the other, as far as they are added. -/
def LinesFindNoTime : List Json → TransportNetwork → Prop
  | [], _ => True
  | lineJson::lines, nw => ∀ line, Line.ofJson lineJson = some line →
    nw.FindsNoTime line ∧ ∀ nw', nw.addLine line = some (true,nw') → LinesFindNoTime lines nw'

/-- No line that the operation adds finds a travel time on its way. -/
def KeepsTimes (nw : TransportNetwork) : Operation → Prop
  | .call (.addLine line) => nw.FindsNoTime line
  | .call _ => True
  | .fromJson src => ∀ stations lines nw', src.field (ascii "stations") = some stations →
    addStations stations.elements nw = (.ok (),nw') → src.field (ascii "lines") = some lines →
      LinesFindNoTime lines.elements nw'

/-- The pairs of stations have one time each. -/
def IsTimed (nw : TransportNetwork) : Prop := ∃ time, nw.Timed time

theorem IsTimed.setTravelTime (h : nw.IsTimed) (A B : Id) (t : UInt32) :
    (nw.setTravelTime A B t).2.IsTimed := by
  obtain ⟨time,htime⟩ := h
  by_cases hknown : (nw.getStation A).isSome ∧ (nw.getStation B).isSome
  · exact ⟨_,htime.setTravelTime hknown.1 hknown.2 t⟩
  · rw [setTravelTime_unknown hknown]
    exact ⟨time,htime⟩

theorem IsTimed.addStation (h : nw.IsTimed) (station : Station) :
    (nw.addStation station).2.IsTimed := by
  obtain ⟨time,htime⟩ := h
  exact ⟨time,htime.addStation station⟩

theorem IsTimed.run (h : nw.IsTimed) {c : Call} (hkeeps : nw.KeepsTimes (.call c))
    (hrun : nw.run c = some (ok,nw')) : nw'.IsTimed := by
  cases c with
  | addStation station =>
    rw [← show (nw.addStation station).2 = nw' from congrArg Prod.snd (Option.some.inj hrun)]
    exact h.addStation station
  | addLine line =>
    obtain ⟨time,htime⟩ := h
    exact htime.addLine hkeeps hrun
  | setTravelTime A B t =>
    rw [← show (nw.setTravelTime A B t).2 = nw' from congrArg Prod.snd (Option.some.inj hrun)]
    exact h.setTravelTime A B t
  | recordPassengerEvent event =>
    rw [← show (nw.recordPassengerEvent event).2 = nw' from
      congrArg Prod.snd (Option.some.inj hrun)]
    obtain ⟨time,htime⟩ := h
    exact ⟨time,htime.recordPassengerEvent event⟩

theorem IsTimed.fromJson {src : Json} {loaded : Loaded Bool} (h : nw.IsTimed)
    (hkeeps : nw.KeepsTimes (.fromJson src)) (hload : nw.fromJson src = some loaded) :
    loaded.2.IsTimed := by
  refine fromJson_keeps (fun _ station h => h.addStation station) ?_
    (fun _ _ _ line hno hjson => hno line hjson) (fun _ A B t h => h.setTravelTime A B t) h hkeeps hload
  rintro nw line ok nw' ⟨time,htime⟩ hfinds hadd
  exact htime.addLine hfinds hadd

theorem RunsTo.isTimed (h : RunsTo KeepsTimes nw) : nw.IsTimed := by
  induction h with
  | empty => exact ⟨fun _ => 0,timed_empty _⟩
  | @step nw nw' operation _ hkeeps hstep ih =>
    cases operation with
    | call c =>
      obtain ⟨⟨ok,next⟩,hrun,rfl⟩ := Option.map_eq_some_iff.mp hstep
      exact ih.run hkeeps hrun
    | fromJson src =>
      obtain ⟨loaded,hload,rfl⟩ := Option.map_eq_some_iff.mp hstep
      exact ih.fromJson hkeeps hload

/-- As long as no line joins stations that have a time, all times are uniform. -/
theorem uniformTimes_of_runs (h : RunsTo KeepsTimes nw) : nw.UniformTimes := by
  obtain ⟨time,htime⟩ := h.isTimed
  exact htime.uniformTimes

/-! Runs of calls. -/

def performAll (nw : TransportNetwork) : List Call → TransportNetwork
  | [] => nw
  | c::calls => ((nw.perform (.call c)).getD nw).performAll calls

def MeetAll (condition : TransportNetwork → Operation → Prop) (nw : TransportNetwork) :
    List Call → Prop
  | [] => True
  | c::calls => condition nw (.call c) ∧ MeetAll condition ((nw.perform (.call c)).getD nw) calls

theorem RunsTo.performAll {condition : TransportNetwork → Operation → Prop}
    (h : RunsTo condition nw) {calls : List Call} (hall : MeetAll condition nw calls) :
    RunsTo condition (nw.performAll calls) := by
  induction calls generalizing nw with
  | nil => exact h
  | cons c calls ih =>
    obtain ⟨hcondition,hrest⟩ := hall
    refine ih ?_ hrest
    cases hstep : nw.perform (.call c) with
    | none => exact h
    | some next => exact h.step hcondition hstep

def timedLine : List Call :=
  [.addStation ⟨ascii "A",[]⟩,.addStation ⟨ascii "B",[]⟩,
    .addLine ⟨ascii "red",[],[⟨ascii "r",[],ascii "red",ascii "A",ascii "B",[ascii "A",ascii "B"]⟩]⟩,
    .setTravelTime (ascii "A") (ascii "B") 5]

theorem hop_pair {A B C D : Id} (h : Hop [A,B] C D) : C = A ∧ D = B := by
  obtain ⟨i,hC,hD⟩ := h
  cases i with
  | zero => exact ⟨by simpa using hC.symm,by simpa using hD.symm⟩
  | succ i => simp at hD

theorem meetAll_timedLine : MeetAll KeepsTimes empty timedLine := by
  refine ⟨trivial,trivial,?_,trivial,trivial⟩
  intro route hroute
  have hstops : route.stops = [ascii "A",ascii "B"] := by
    revert route
    decide +kernel
  intro A B hhop
  rw [hstops] at hhop
  obtain ⟨rfl,rfl⟩ := hop_pair hhop
  decide +kernel

theorem uniformTimes_timedLine : (empty.performAll timedLine).UniformTimes :=
  uniformTimes_of_runs (RunsTo.empty.performAll meetAll_timedLine)

def WellFormedLine (nw : TransportNetwork) (line : Line) : Prop :=
  (nw.getLine line.id).isNone ∧ line.routes ≠ [] ∧ ∀ route ∈ line.routes,
    route.lineId = line.id ∧ 2 ≤ route.stops.length ∧
      route.stops.head? = some route.startStationId ∧
        route.stops.getLast? = some route.endStationId ∧
          (∀ stop ∈ route.stops, (nw.getStation stop).isSome) ∧ route.stops.Nodup

def GivesWellFormed (nw : TransportNetwork) : Operation → Prop
  | .call (.addLine line) => nw.WellFormedLine line
  | _ => True

/-- A second line the other way gets no time, and the time depends on the direction. -/
theorem times_differ : ¬∀ nw, RunsTo GivesWellFormed nw → nw.UniformTimes := by
  intro hclaim
  let calls := timedLine ++ [.addLine ⟨ascii "blue",[],[⟨ascii "b",[],ascii "blue",ascii "B",
    ascii "A",[ascii "B",ascii "A"]⟩]⟩]
  have hall : MeetAll GivesWellFormed empty calls := by
    refine ⟨trivial,trivial,?_,trivial,?_,trivial⟩
    · exact ⟨by decide +kernel,by decide,by decide +kernel⟩
    · exact ⟨by decide +kernel,by decide,by decide +kernel⟩
  have hcomm := (hclaim _ (RunsTo.empty.performAll hall)).getTravelTime_comm (ascii "A") (ascii "B")
  revert hcomm
  decide +kernel

end TransportNetwork
end QuietRoute
