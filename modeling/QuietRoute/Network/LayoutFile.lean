import QuietRoute.Json
import QuietRoute.Network.RouteSearch

/-! The network layout file: `FromJson`, with what it throws and the network it leaves behind. -/
namespace QuietRoute

inductive LoadingException
  | json
  | runtimeError (what : Bytes)
  deriving DecidableEq

/-- The value or the exception that a part of `FromJson` ends with, and the network as it is then. -/
abbrev Loaded (α : Type) := Except LoadingException α × TransportNetwork

/-- `get<unsigned int>`; no value at all is an exception, and no number a conversion of a float
that is undefined. -/
def Json.getUnsigned : Json → Option (Option UInt32)
  | integer n => some (some (UInt32.ofInt n))
  | float x => some (toUnsigned x)
  | boolean b => some (some (if b then 1 else 0))
  | _ => none

def Station.ofJson (stationJson : Json) : Option Station := do
  let id ← stationJson.stringAt (ascii "station_id")
  let name ← stationJson.stringAt (ascii "name")
  return ⟨id,name⟩

def Route.ofJson (routeJson : Json) : Option Route := do
  let id ← routeJson.stringAt (ascii "route_id")
  let direction ← routeJson.stringAt (ascii "direction")
  let lineId ← routeJson.stringAt (ascii "line_id")
  let startStationId ← routeJson.stringAt (ascii "start_station_id")
  let endStationId ← routeJson.stringAt (ascii "end_station_id")
  let stops ← (← routeJson.field (ascii "route_stops")).getStrings
  return ⟨id,direction,lineId,startStationId,endStationId,stops⟩

def Line.ofJson (lineJson : Json) : Option Line := do
  let id ← lineJson.stringAt (ascii "line_id")
  let name ← lineJson.stringAt (ascii "name")
  let routesJson ← lineJson.field (ascii "routes")
  let routes ← routesJson.elements.mapM Route.ofJson
  return ⟨id,name,routes⟩

/-- An entry of the travel times; the number is missing where its conversion is undefined. -/
structure TravelTimeEntry where
  startStationId : Id
  endStationId : Id
  travelTime : Option UInt32

def TravelTimeEntry.ofJson (travelTimeJson : Json) : Option TravelTimeEntry := do
  let startStationId ← travelTimeJson.stringAt (ascii "start_station_id")
  let endStationId ← travelTimeJson.stringAt (ascii "end_station_id")
  let travelTime ← (← travelTimeJson.field (ascii "travel_time")).getUnsigned
  return ⟨startStationId,endStationId,travelTime⟩

namespace TransportNetwork

/-- The first loop of `FromJson`. -/
def addStations : List Json → TransportNetwork → Loaded Unit
  | [], nw => (.ok (),nw)
  | stationJson::stations, nw =>
    match Station.ofJson stationJson with
    | none => (.error .json,nw)
    | some station =>
      match nw.addStation station with
      | (true,nw') => addStations stations nw'
      | (false,nw') => (.error (.runtimeError (ascii "Could not add station " ++ station.id)),nw')

/-- The second loop; `none` is a line with a route without stops. -/
def addLines : List Json → TransportNetwork → Option (Loaded Unit)
  | [], nw => some (.ok (),nw)
  | lineJson::lines, nw =>
    match Line.ofJson lineJson with
    | none => some (.error .json,nw)
    | some line =>
      match nw.addLine line with
      | none => none
      | some (true,nw') => addLines lines nw'
      | some (false,nw') => some (.error (.runtimeError (ascii "Could not add line " ++ line.id)),nw')

/-- The third loop; it goes on after an entry that fails. -/
def setTravelTimes : List Json → Bool → TransportNetwork → Option (Loaded Bool)
  | [], ok, nw => some (.ok ok,nw)
  | travelTimeJson::travelTimes, ok, nw =>
    match TravelTimeEntry.ofJson travelTimeJson with
    | none => some (.error .json,nw)
    | some entry => do
      let travelTime ← entry.travelTime
      let (set,nw') := nw.setTravelTime entry.startStationId entry.endStationId travelTime
      setTravelTimes travelTimes (ok && set) nw'

def fromJson (nw : TransportNetwork) (src : Json) : Option (Loaded Bool) :=
  match src.field (ascii "stations") with
  | none => some (.error .json,nw)
  | some stations =>
    match addStations stations.elements nw with
    | (.error thrown,nw') => some (.error thrown,nw')
    | (.ok (),nw') =>
      match src.field (ascii "lines") with
      | none => some (.error .json,nw')
      | some lines =>
        match addLines lines.elements nw' with
        | none => none
        | some (.error thrown,nw'') => some (.error thrown,nw'')
        | some (.ok (),nw'') =>
          match src.field (ascii "travel_times") with
          | none => some (.error .json,nw'')
          | some travelTimes => setTravelTimes travelTimes.elements true nw''

/-- Where loading can end: each loop only starts if the one before it has not thrown. -/
theorem fromJson_cases {nw : TransportNetwork} {src : Json} {loaded : Loaded Bool}
    (h : nw.fromJson src = some loaded) :
    loaded.2 = nw ∨
    ∃ stations, src.field (ascii "stations") = some stations ∧
      (loaded.2 = (addStations stations.elements nw).2 ∨
        ∃ nw' lines, addStations stations.elements nw = (.ok (),nw') ∧
          src.field (ascii "lines") = some lines ∧
          ∃ drawn, addLines lines.elements nw' = some drawn ∧
            (loaded.2 = drawn.2 ∨
              ∃ travelTimes, setTravelTimes travelTimes true drawn.2 = some loaded)) := by
  rw [fromJson] at h
  cases hstations : src.field (ascii "stations") with
  | none =>
    simp only [hstations,Option.some.injEq] at h
    exact Or.inl (by rw [← h])
  | some stations =>
    refine Or.inr ⟨stations,rfl,?_⟩
    rcases hadd : addStations stations.elements nw with ⟨thrown | _,nw'⟩
    · simp only [hstations,hadd,Option.some.injEq] at h
      exact Or.inl (by rw [← h])
    · cases hlines : src.field (ascii "lines") with
      | none =>
        simp only [hstations,hadd,hlines,Option.some.injEq] at h
        exact Or.inl (by rw [← h])
      | some lines =>
        refine Or.inr ⟨nw',lines,rfl,rfl,?_⟩
        rcases hdraw : addLines lines.elements nw' with _ | ⟨thrown | _,nw''⟩
        · simp [hstations,hadd,hlines,hdraw] at h
        · simp only [hstations,hadd,hlines,hdraw,Option.some.injEq] at h
          exact ⟨_,rfl,Or.inl (by rw [← h])⟩
        · refine ⟨_,rfl,?_⟩
          cases htimes : src.field (ascii "travel_times") with
          | none =>
            simp only [hstations,hadd,hlines,hdraw,htimes,Option.some.injEq] at h
            exact Or.inl (by rw [← h])
          | some travelTimes =>
            simp only [hstations,hadd,hlines,hdraw,htimes] at h
            exact Or.inr ⟨_,h⟩

/-! What every change of the network keeps, loading keeps: the loops one after the other. -/

section keeps

variable {nw : TransportNetwork} {keeps : TransportNetwork → Prop}

theorem addStations_keeps (hstation : ∀ nw station, keeps nw → keeps (addStation nw station).2)
    (stations : List Json) (h : keeps nw) : keeps (addStations stations nw).2 := by
  induction stations generalizing nw with
  | nil => exact h
  | cons stationJson stations ih =>
    rw [addStations]
    cases hjson : Station.ofJson stationJson with
    | none => exact h
    | some station =>
      have hadd := hstation nw station h
      cases hresult : nw.addStation station with
      | mk ok nw' =>
        rw [hresult] at hadd
        cases ok with
        | true =>
          simp only [hresult]
          exact ih hadd
        | false =>
          simp only [hresult]
          exact hadd

theorem addLines_keeps {meets : TransportNetwork → Line → Prop}
    {allMeet : List Json → TransportNetwork → Prop}
    (hline : ∀ nw line ok nw', keeps nw → meets nw line → addLine nw line = some (ok,nw') → keeps nw')
    (hnext : ∀ lineJson lines nw line, allMeet (lineJson::lines) nw → Line.ofJson lineJson = some line →
      meets nw line ∧ ∀ nw', addLine nw line = some (true,nw') → allMeet lines nw')
    {lines : List Json} {loaded : Loaded Unit} (h : keeps nw) (hmeet : allMeet lines nw)
    (hadd : addLines lines nw = some loaded) : keeps loaded.2 := by
  induction lines generalizing nw with
  | nil =>
    rw [← Option.some.inj hadd]
    exact h
  | cons lineJson lines ih =>
    rw [addLines] at hadd
    cases hjson : Line.ofJson lineJson with
    | none =>
      simp only [hjson,Option.some.injEq] at hadd
      rw [← hadd]
      exact h
    | some line =>
      obtain ⟨hmeets,hrest⟩ := hnext lineJson lines nw line hmeet hjson
      cases hresult : nw.addLine line with
      | none => simp [hjson,hresult] at hadd
      | some result =>
        obtain ⟨ok,nw'⟩ := result
        have hadded := hline nw line ok nw' h hmeets hresult
        cases ok with
        | true =>
          simp only [hjson,hresult] at hadd
          exact ih hadded (hrest nw' hresult) hadd
        | false =>
          simp only [hjson,hresult,Option.some.injEq] at hadd
          rw [← hadd]
          exact hadded

theorem setTravelTimes_keeps
    (htime : ∀ nw stationA stationB t, keeps nw → keeps (setTravelTime nw stationA stationB t).2)
    {travelTimes : List Json} {flag : Bool} {loaded : Loaded Bool} (h : keeps nw)
    (hset : setTravelTimes travelTimes flag nw = some loaded) : keeps loaded.2 := by
  induction travelTimes generalizing nw flag with
  | nil =>
    rw [← Option.some.inj hset]
    exact h
  | cons travelTimeJson travelTimes ih =>
    rw [setTravelTimes] at hset
    cases hentry : TravelTimeEntry.ofJson travelTimeJson with
    | none =>
      simp only [hentry,Option.some.injEq] at hset
      rw [← hset]
      exact h
    | some entry =>
      simp only [hentry,Option.bind_eq_bind,Option.bind_eq_some_iff] at hset
      obtain ⟨travelTime,-,hset⟩ := hset
      exact ih (htime _ _ _ _ h) hset

theorem fromJson_keeps {meets : TransportNetwork → Line → Prop}
    {allMeet : List Json → TransportNetwork → Prop}
    (hstation : ∀ nw station, keeps nw → keeps (addStation nw station).2)
    (hline : ∀ nw line ok nw', keeps nw → meets nw line → addLine nw line = some (ok,nw') → keeps nw')
    (hnext : ∀ lineJson lines nw line, allMeet (lineJson::lines) nw → Line.ofJson lineJson = some line →
      meets nw line ∧ ∀ nw', addLine nw line = some (true,nw') → allMeet lines nw')
    (htime : ∀ nw stationA stationB t, keeps nw → keeps (setTravelTime nw stationA stationB t).2)
    {src : Json} {loaded : Loaded Bool} (h : keeps nw)
    (hmeet : ∀ stations lines nw', src.field (ascii "stations") = some stations →
      addStations stations.elements nw = (.ok (),nw') → src.field (ascii "lines") = some lines →
        allMeet lines.elements nw')
    (hload : nw.fromJson src = some loaded) : keeps loaded.2 := by
  obtain heq | ⟨stations,hstations,heq | ⟨nw',lines,hadd,hlines,drawn,hdraw,hrest⟩⟩ :=
    fromJson_cases hload
  · rw [heq]
    exact h
  · rw [heq]
    exact addStations_keeps hstation stations.elements h
  · have hadded := addStations_keeps hstation stations.elements h
    rw [hadd] at hadded
    have hdrawn := addLines_keeps hline hnext hadded (hmeet stations lines nw' hstations hadd hlines)
      hdraw
    rcases hrest with heq | ⟨travelTimes,hset⟩
    · rw [heq]
      exact hdrawn
    · exact setTravelTimes_keeps htime hdrawn hset

end keeps

end TransportNetwork
end QuietRoute
