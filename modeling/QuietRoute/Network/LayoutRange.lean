import QuietRoute.Network.LayoutLoading
import QuietRoute.Network.AddedLines
import QuietRoute.Network.FailedAddLine

/-! When loading a layout stays in range. `AddRouteToLine` takes a route without stops for one with
`size() - 1` hops, so the loading goes astray exactly if it gets as far as such a route. -/
namespace QuietRoute
namespace TransportNetwork

variable {nw nw' : TransportNetwork} {line line' : LineInternal} {routes : List Route}
  {lines : List Line}

/-! The routes of a line. -/

theorem addRouteToLine_eq_none_iff {route : Route} : nw.addRouteToLine route line = none ↔
    nw.Fits line.routes route ∧ route.stops = [] := by
  cases hresult : nw.addRouteToLine route line with
  | none =>
    rw [addRouteToLine] at hresult
    split_ifs at hresult with hdup hstop hempty
    simp only [true_iff]
    refine ⟨⟨by simpa using hdup,?_⟩,hempty⟩
    simp [hempty]
  | some result =>
    refine ⟨fun h => absurd h (by simp),fun h => ?_⟩
    obtain ⟨⟨hnew,-⟩,hempty⟩ := h
    simp [addRouteToLine,hnew,hempty] at hresult

/-- A route without stops is accepted, after some routes with stops. -/
structure Astray (good : Route → Prop) (routes pre : List Route) (route : Route) (post : List Route) :
    Prop where
  split : routes = pre ++ route::post
  empty : route.stops = []
  distinct : ((pre ++ [route]).map Route.id).Nodup
  good : ∀ r ∈ pre ++ [route], good r
  nonempty : ∀ r ∈ pre, r.stops ≠ []

theorem Astray.head_good {good : Route → Prop} {first route : Route} {pre post : List Route}
    (h : Astray good (first::routes) pre route post) : good first := by
  cases pre with
  | nil =>
    rw [(List.cons.inj h.split).1]
    exact h.good route (by simp)
  | cons r pre =>
    rw [(List.cons.inj h.split).1]
    exact h.good r (by simp)

theorem addRoutes_eq_none_iff : addRoutes routes nw line = none ↔
    ∃ pre route post, Astray (nw.Fits line.routes) routes pre route post := by
  induction routes generalizing nw line with
  | nil =>
    refine ⟨fun h => by simp [addRoutes] at h,?_⟩
    rintro ⟨pre,route,post,h⟩
    simpa using h.split
  | cons first routes ih =>
    rcases hadd : nw.addRouteToLine first line with _ | ⟨_ | _,next,line''⟩
    · obtain ⟨hfits,hempty⟩ := addRouteToLine_eq_none_iff.mp hadd
      simp only [addRoutes,hadd,true_iff]
      exact ⟨[],first,routes,rfl,hempty,by simp,by simpa using hfits,by simp⟩
    · simp only [addRoutes,hadd,reduceCtorEq,false_iff]
      rintro ⟨pre,route,post,h⟩
      have hfirst := h.head_good
      rcases (addRouteToLine_eq_false hadd).2 with hdup | ⟨stop,hstop,hnone⟩
      · simp [hfirst.1] at hdup
      · have hsome := hfirst.2 stop hstop
        simp [hnone] at hsome
    · obtain ⟨hnew,hknown,hne,rfl,rfl⟩ := addRouteToLine_eq_true hadd
      simp only [addRoutes,hadd]
      rw [ih]
      constructor
      · rintro ⟨pre,route,post,h⟩
        obtain ⟨hdistinct,hgood⟩ := (nodup_keys_cons_iff ⟨hnew,hknown⟩
          fun r => fits_addEdges).mp ⟨h.distinct,h.good⟩
        refine ⟨first::pre,route,post,by rw [h.split]; rfl,h.empty,hdistinct,hgood,?_⟩
        intro r hr
        rcases List.mem_cons.mp hr with rfl | hr
        · exact hne
        · exact h.nonempty r hr
      · rintro ⟨pre,route,post,h⟩
        cases pre with
        | nil =>
          obtain rfl := (List.cons.inj h.split).1
          exact absurd h.empty hne
        | cons r pre =>
          obtain ⟨rfl,hsplit⟩ := List.cons.inj h.split
          obtain ⟨hdistinct,hgood⟩ := (nodup_keys_cons_iff ⟨hnew,hknown⟩
            fun r => fits_addEdges).mpr ⟨h.distinct,h.good⟩
          exact ⟨pre,route,post,hsplit,h.empty,hdistinct,hgood,
            fun r hr => h.nonempty r (List.mem_cons_of_mem first hr)⟩

/-! The lines of a document. -/

/-- A line that is new and gets as far as a route without stops. -/
def GoesAstray (nw : TransportNetwork) (line : Line) : Prop :=
  nw.getLine line.id = none ∧ ∃ pre route post, Astray
    (fun r => ∀ stop ∈ r.stops, (nw.getStation stop).isSome) line.routes pre route post

theorem addLine_eq_none_iff {newLine : Line} :
    nw.addLine newLine = none ↔ nw.GoesAstray newLine := by
  have hfits : nw.Fits (UnorderedMap.empty : UnorderedMap Id RouteInternal) =
      fun r => ∀ stop ∈ r.stops, (nw.getStation stop).isSome := by
    ext r
    simp [Fits]
  rw [addLine,GoesAstray,← hfits]
  cases hdup : nw.getLine newLine.id with
  | some known => simp
  | none =>
    have hnone := @addRoutes_eq_none_iff nw ⟨newLine.id,newLine.name,.empty⟩ newLine.routes
    rw [← hnone]
    rcases addRoutes newLine.routes nw ⟨newLine.id,newLine.name,.empty⟩ with _ | ⟨_ | _,next,added⟩
    · simp
    · simp
    · simp

def Welcome (nw : TransportNetwork) (line : Line) : Prop :=
  nw.getLine line.id = none ∧ nw.Complete line ∧ ∀ route ∈ line.routes, route.stops ≠ []

theorem welcome_of_addLine {newLine : Line} (h : nw.addLine newLine = some (true,nw')) :
    nw.Welcome newLine ∧ nw.Draws nw' [newLine] := by
  obtain ⟨new,hmakes,-⟩ := makes_addLine h
  rcases addLine_cases hmakes.nonempty with ⟨next,hadd,hdraws,hnew,hcomplete⟩ | ⟨next,hadd,-⟩
  · rw [h,Option.some.injEq,Prod.mk.injEq] at hadd
    rw [hadd.2]
    exact ⟨⟨hnew,hcomplete,hmakes.nonempty⟩,hdraws⟩
  · rw [h] at hadd
    cases hadd

theorem Welcome.addLine {newLine : Line} (h : nw.Welcome newLine) :
    ∃ nw', nw.addLine newLine = some (true,nw') := by
  obtain ⟨hnew,hcomplete,hnonempty⟩ := h
  rcases addLine_cases hnonempty with ⟨next,hadd,-⟩ | ⟨next,-,hbad⟩
  · exact ⟨next,hadd⟩
  · exact absurd ⟨hnew,hcomplete⟩ hbad

theorem Draws.welcome_iff {next : TransportNetwork} {first : Line} (h : nw.Draws next [first])
    (newLine : Line) : next.Welcome newLine ↔ first.id ≠ newLine.id ∧ nw.Welcome newLine := by
  rw [Welcome,Welcome,Complete.congr h.toExtends.isSome_getStation,
    ← Option.not_isSome_iff_eq_none,h.getLine_isSome,not_or,Option.not_isSome_iff_eq_none,
    List.map_singleton,List.mem_singleton,ne_comm,and_assoc]

theorem Draws.goesAstray_iff {next : TransportNetwork} {first : Line} (h : nw.Draws next [first])
    (newLine : Line) : next.GoesAstray newLine ↔ first.id ≠ newLine.id ∧ nw.GoesAstray newLine := by
  simp only [GoesAstray,h.toExtends.isSome_getStation]
  rw [← Option.not_isSome_iff_eq_none,h.getLine_isSome,not_or,Option.not_isSome_iff_eq_none,
    List.map_singleton,List.mem_singleton,ne_comm,and_assoc]

def LinesGoAstray (nw : TransportNetwork) (lines : List Line) : Prop :=
  ∃ pre line post, lines = pre ++ line::post ∧ ((pre ++ [line]).map Line.id).Nodup ∧
    (∀ l ∈ pre, nw.Welcome l) ∧ nw.GoesAstray line

theorem Draws.linesGoAstray_iff {next : TransportNetwork} {first : Line}
    (h : nw.Draws next [first]) (hfirst : nw.Welcome first) (lines : List Line) :
    next.LinesGoAstray lines ↔ nw.LinesGoAstray (first::lines) := by
  constructor
  · rintro ⟨pre,line,post,rfl,hdistinct,hpre,hline⟩
    obtain ⟨hne,hline⟩ := (h.goesAstray_iff line).mp hline
    refine ⟨first::pre,line,post,rfl,?_,?_,hline⟩
    · rw [List.cons_append,List.map_cons,List.nodup_cons]
      refine ⟨fun hmem => ?_,hdistinct⟩
      obtain ⟨l,hl,heq⟩ := List.mem_map.mp hmem
      rcases List.mem_append.mp hl with hl | hl
      · exact ((h.welcome_iff l).mp (hpre l hl)).1 heq.symm
      · exact hne (by rw [← heq,List.mem_singleton.mp hl])
    · intro l hl
      rcases List.mem_cons.mp hl with rfl | hl
      · exact hfirst
      · exact ((h.welcome_iff l).mp (hpre l hl)).2
  · rintro ⟨pre,line,post,hsplit,hdistinct,hpre,hline⟩
    cases pre with
    | nil =>
      -- a line that is added does not go astray
      obtain rfl := (List.cons.inj hsplit).1
      obtain ⟨nw',hadd⟩ := hfirst.addLine
      rw [addLine_eq_none_iff.mpr hline] at hadd
      cases hadd
    | cons l pre =>
      obtain ⟨rfl,rfl⟩ := List.cons.inj hsplit
      rw [List.cons_append,List.map_cons,List.nodup_cons] at hdistinct
      obtain ⟨hfresh,hdistinct⟩ := hdistinct
      have hne : ∀ r ∈ pre ++ [line], first.id ≠ r.id :=
        fun r hr heq => hfresh (List.mem_map.mpr ⟨r,hr,heq.symm⟩)
      refine ⟨pre,line,post,rfl,hdistinct,fun r hr => ?_,?_⟩
      · exact (h.welcome_iff r).mpr ⟨hne r (List.mem_append_left _ hr),
          hpre r (List.mem_cons_of_mem first hr)⟩
      · exact (h.goesAstray_iff line).mpr ⟨hne line (by simp),hline⟩

theorem addLines_eq_none_iff {jsons : List Json} (h : jsons.mapM Line.ofJson = some lines) :
    addLines jsons nw = none ↔ nw.LinesGoAstray lines := by
  induction jsons generalizing nw lines with
  | nil =>
    obtain rfl : [] = lines := Option.some.inj h
    refine ⟨fun hnone => by simp [addLines] at hnone,?_⟩
    rintro ⟨pre,line,post,hsplit,-⟩
    simp at hsplit
  | cons json jsons ih =>
    obtain ⟨first,rest,hfirst,hrest,rfl⟩ := mapM_cons_eq_some.mp h
    rw [addLines,hfirst]
    rcases hadd : nw.addLine first with _ | ⟨_ | _,next⟩
    · simp only [hadd,true_iff]
      exact ⟨[],first,rest,rfl,by simp,by simp,addLine_eq_none_iff.mp hadd⟩
    · simp only [hadd,reduceCtorEq,false_iff]
      rintro ⟨pre,line,post,hsplit,-,hpre,hline⟩
      cases pre with
      | nil =>
        rw [← (List.cons.inj hsplit).1] at hline
        rw [addLine_eq_none_iff.mpr hline] at hadd
        cases hadd
      | cons l pre =>
        obtain ⟨nw',hadd'⟩ := (hpre l List.mem_cons_self).addLine
        rw [← (List.cons.inj hsplit).1,hadd] at hadd'
        cases hadd'
    · obtain ⟨hwelcome,hdraws⟩ := welcome_of_addLine hadd
      simp only [hadd]
      rw [ih hrest,hdraws.linesGoAstray_iff hwelcome]

theorem addLines_ok_iff {jsons : List Json} (h : jsons.mapM Line.ofJson = some lines) :
    (∃ nw', addLines jsons nw = some (.ok (),nw')) ↔
      (lines.map Line.id).Nodup ∧ ∀ l ∈ lines, nw.Welcome l := by
  induction jsons generalizing nw lines with
  | nil =>
    obtain rfl : [] = lines := Option.some.inj h
    simp [addLines]
  | cons json jsons ih =>
    obtain ⟨first,rest,hfirst,hrest,rfl⟩ := mapM_cons_eq_some.mp h
    rw [addLines,hfirst]
    have hrefused : ¬(∃ nw', nw.addLine first = some (true,nw')) →
        ¬(((first::rest).map Line.id).Nodup ∧ ∀ l ∈ first::rest, nw.Welcome l) :=
      fun hno hall => hno (hall.2 first List.mem_cons_self).addLine
    rcases hadd : nw.addLine first with _ | ⟨_ | _,next⟩
    · simp only [hadd,reduceCtorEq,exists_false,false_iff]
      exact hrefused (by simp [hadd])
    · simp only [hadd,Option.some.injEq,Prod.mk.injEq,reduceCtorEq,false_and,exists_false,false_iff]
      exact hrefused (by simp [hadd])
    · obtain ⟨hwelcome,hdraws⟩ := welcome_of_addLine hadd
      simp only [hadd]
      rw [ih hrest]
      exact nodup_keys_cons_iff hwelcome hdraws.welcome_iff

end TransportNetwork

/-! The document. -/

/-- The number of a travel time: there need be no conversion to `unsigned int`. -/
def numberOfJson (travelTimeJson : Json) : Option Json := do
  let _ ← travelTimeJson.stringAt (ascii "start_station_id")
  let _ ← travelTimeJson.stringAt (ascii "end_station_id")
  match ← travelTimeJson.field (ascii "travel_time") with
  | .integer n => return .integer n
  | .float x => return .float x
  | _ => none

/-- A document in which every field is present and of the right type. -/
structure Document where
  stations : List Station
  lines : List Line
  travelTimes : List Json

def Document.ofJson (src : Json) : Option Document := do
  let stations ← (← src.field (ascii "stations")).elements.mapM Station.ofJson
  let lines ← (← src.field (ascii "lines")).elements.mapM Line.ofJson
  let travelTimes ← (← src.field (ascii "travel_times")).elements.mapM numberOfJson
  return ⟨stations,lines,travelTimes⟩

/-- A float whose conversion to `unsigned int` is undefined. -/
def Json.Exceeds : Json → Prop
  | float x => ¬(-1 < x ∧ x < 2^32)
  | _ => False

namespace Document

open TransportNetwork

variable {document : Document} {nw nw' : TransportNetwork}

/-- A station of the document or of the network it is loaded into. -/
def Knows (document : Document) (nw : TransportNetwork) (S : Id) : Prop :=
  S ∈ document.stations.map Station.id ∨ (nw.getStation S).isSome

/-- A line that is new, and whose routes all have stops, known ones, and ids of their own. -/
def Accepts (document : Document) (nw : TransportNetwork) (line : Line) : Prop :=
  nw.getLine line.id = none ∧ (line.routes.map Route.id).Nodup ∧
    ∀ route ∈ line.routes, route.stops ≠ [] ∧ ∀ stop ∈ route.stops, document.Knows nw stop

/-- All stations and all lines up to one of the lines are accepted, and so are its routes up to one
without stops. -/
structure LeadsAstray (document : Document) (nw : TransportNetwork) : Prop where
  stations_distinct : (document.stations.map Station.id).Nodup
  stations_new : ∀ s ∈ document.stations, nw.getStation s.id = none
  line : ∃ pre line post, document.lines = pre ++ line::post ∧ ((pre ++ [line]).map Line.id).Nodup ∧
    (∀ l ∈ pre, document.Accepts nw l) ∧ nw.getLine line.id = none ∧ ∃ before route after,
      Astray (fun r => ∀ stop ∈ r.stops, document.Knows nw stop) line.routes before route after

/-- All stations and lines are accepted, and there is a travel time without a conversion. -/
structure Exceeds (document : Document) (nw : TransportNetwork) : Prop where
  stations_distinct : (document.stations.map Station.id).Nodup
  stations_new : ∀ s ∈ document.stations, nw.getStation s.id = none
  lines_distinct : (document.lines.map Line.id).Nodup
  lines_accepted : ∀ l ∈ document.lines, document.Accepts nw l
  number : ∃ x ∈ document.travelTimes, x.Exceeds

theorem getLine_eq (h : nw.Enters nw' document.stations) (id : Id) : nw'.getLine id = nw.getLine id := by
  rw [getLine,h.lines_eq,getLine]

theorem accepts_iff (h : nw.Enters nw' document.stations) (line : Line) :
    nw'.Welcome line ↔ document.Accepts nw line := by
  have hknows : ∀ S, (nw'.getStation S).isSome ↔ document.Knows nw S := h.isSome_getStation
  simp only [Welcome,Accepts,Complete,getLine_eq h,hknows]
  refine and_congr_right fun _ => ?_
  rw [and_assoc,← forall₂_and]
  simp only [and_comm]

theorem linesGoAstray_iff (h : nw.Enters nw' document.stations) :
    nw'.LinesGoAstray document.lines ↔
      ∃ pre line post, document.lines = pre ++ line::post ∧ ((pre ++ [line]).map Line.id).Nodup ∧
        (∀ l ∈ pre, document.Accepts nw l) ∧ nw.getLine line.id = none ∧ ∃ before route after,
          Astray (fun r => ∀ stop ∈ r.stops, document.Knows nw stop) line.routes before route after := by
  have hknows : ∀ S, (nw'.getStation S).isSome ↔ document.Knows nw S := h.isSome_getStation
  simp only [LinesGoAstray,GoesAstray,accepts_iff h,getLine_eq h,hknows]

theorem not_leadsAstray (h : ∀ line ∈ document.lines, ∀ route ∈ line.routes, route.stops ≠ []) :
    ¬document.LeadsAstray nw := by
  intro hastray
  obtain ⟨pre,line,post,hsplit,-,-,-,before,route,after,hroute⟩ := hastray.line
  refine h line ?_ route ?_ hroute.empty
  · rw [hsplit]; simp
  · rw [hroute.split]; simp

end Document

namespace TransportNetwork

variable {nw nw' : TransportNetwork}

/-! Whatever is loaded into a network leaves it reachable. -/

theorem Reachable.addStations (h : nw.Reachable) (stations : List Json) :
    (TransportNetwork.addStations stations nw).2.Reachable := by
  induction stations generalizing nw with
  | nil => exact h
  | cons stationJson stations ih =>
    rw [TransportNetwork.addStations]
    cases Station.ofJson stationJson with
    | none => exact h
    | some station =>
      have hstep : (nw.addStation station).2.Reachable := .call (.addStation station) h rfl
      rcases hadd : nw.addStation station with ⟨_ | _,nw'⟩
      · rw [hadd] at hstep
        simp only [hadd]
        exact hstep
      · rw [hadd] at hstep
        simp only [hadd]
        exact ih hstep

theorem Reachable.addLines {jsons : List Json} {loaded : Loaded Unit} (h : nw.Reachable)
    (hadd : TransportNetwork.addLines jsons nw = some loaded) : loaded.2.Reachable := by
  induction jsons generalizing nw with
  | nil =>
    rw [← Option.some.inj hadd]
    exact h
  | cons lineJson jsons ih =>
    rw [TransportNetwork.addLines] at hadd
    cases hline : Line.ofJson lineJson with
    | none =>
      simp only [hline,Option.some.injEq] at hadd
      rw [← hadd]
      exact h
    | some newLine =>
      rcases hresult : nw.addLine newLine with _ | ⟨_ | _,nw'⟩
      · simp [hline,hresult] at hadd
      · simp only [hline,hresult,Option.some.injEq] at hadd
        rw [← hadd]
        exact .call (.addLine newLine) h hresult
      · simp only [hline,hresult] at hadd
        exact ih (.call (.addLine newLine) h hresult) hadd

theorem Reachable.setTravelTimes {travelTimes : List Json} {flag : Bool} {loaded : Loaded Bool}
    (h : nw.Reachable) (hset : TransportNetwork.setTravelTimes travelTimes flag nw = some loaded) :
    loaded.2.Reachable := by
  induction travelTimes generalizing nw flag with
  | nil =>
    rw [← Option.some.inj hset]
    exact h
  | cons travelTimeJson travelTimes ih =>
    rw [TransportNetwork.setTravelTimes] at hset
    cases hentry : TravelTimeEntry.ofJson travelTimeJson with
    | none =>
      simp only [hentry,Option.some.injEq] at hset
      rw [← hset]
      exact h
    | some entry =>
      simp only [hentry,Option.bind_eq_bind,Option.bind_eq_some_iff] at hset
      obtain ⟨t,-,hset⟩ := hset
      exact ih (.call (.setTravelTime entry.startStationId entry.endStationId t) h rfl) hset

theorem Reachable.fromJson {src : Json} {loaded : Loaded Bool} (h : nw.Reachable)
    (hload : nw.fromJson src = some loaded) : loaded.2.Reachable := by
  obtain heq | ⟨stations,-,heq | ⟨nw',jsons,hadd,-,drawn,hdraw,hrest⟩⟩ := fromJson_cases hload
  · rw [heq]
    exact h
  · rw [heq]
    exact h.addStations stations.elements
  · have hadded := h.addStations stations.elements
    rw [hadd] at hadded
    have hdrawn := hadded.addLines hdraw
    rcases hrest with heq | ⟨travelTimes,hset⟩
    · rw [heq]
      exact hdrawn
    · exact hdrawn.setTravelTimes hset

theorem Reachable.getRoutesServingStation_isSome (h : nw.Reachable) (S : Id) :
    (nw.getRoutesServingStation S).isSome := by
  obtain ⟨ending,hending⟩ := h.exists_ending S
  cases hS : nw.getStation S with
  | none => simp [getRoutesServingStation,hS]
  | some node => rw [getRoutesServingStation_eq (by simp [hS]) hending]; rfl

theorem entry_of_number {json x : Json} (h : numberOfJson json = some x) : ∃ A B t,
    TravelTimeEntry.ofJson json = some ⟨A,B,t⟩ ∧ (t = none ↔ x.Exceeds) := by
  simp only [numberOfJson,Option.bind_eq_bind,Option.bind_eq_some_iff] at h
  obtain ⟨A,hA,B,hB,value,hvalue,h⟩ := h
  have hentry : ∀ t, value.getUnsigned = some t → TravelTimeEntry.ofJson json = some ⟨A,B,t⟩ := by
    intro t ht
    simp only [TravelTimeEntry.ofJson,hA,hB,hvalue,ht,Option.bind_eq_bind,Option.bind_some]
    rfl
  cases value with
  | integer n =>
    obtain rfl := Option.some.inj h
    exact ⟨A,B,_,hentry _ rfl,by simp [Json.Exceeds]⟩
  | float y =>
    obtain rfl := Option.some.inj h
    exact ⟨A,B,_,hentry _ rfl,by simp [Json.Exceeds,toUnsigned]⟩
  | null | boolean | string | array | object => cases h

theorem setTravelTimes_eq_none_iff {jsons numbers : List Json}
    (h : jsons.mapM numberOfJson = some numbers) (flag : Bool) :
    setTravelTimes jsons flag nw = none ↔ ∃ x ∈ numbers, x.Exceeds := by
  induction jsons generalizing nw numbers flag with
  | nil =>
    obtain rfl : [] = numbers := Option.some.inj h
    simp [setTravelTimes]
  | cons json jsons ih =>
    obtain ⟨x,rest,hx,hrest,rfl⟩ := mapM_cons_eq_some.mp h
    obtain ⟨A,B,t,hentry,hexceeds⟩ := entry_of_number hx
    simp only [setTravelTimes,hentry,List.mem_cons,exists_eq_or_imp,← hexceeds]
    cases t with
    | none => simp
    | some t => simpa using ih hrest _

/-! The whole document. -/

/-- Loading ends, and the query for the routes of a station is in range afterwards. -/
def StaysInRange (nw : TransportNetwork) (src : Json) : Prop :=
  ∃ loaded, nw.fromJson src = some loaded ∧ ∀ S, (loaded.2.getRoutesServingStation S).isSome

theorem fromJson_eq_none_iff {src : Json} {document : Document}
    (h : Document.ofJson src = some document) :
    nw.fromJson src = none ↔ document.LeadsAstray nw ∨ document.Exceeds nw := by
  simp only [Document.ofJson,Option.bind_eq_bind,Option.bind_eq_some_iff,Option.pure_def,
    Option.some.injEq] at h
  obtain ⟨stationsJson,hstations,stations,hmapS,linesJson,hlines,lines,hmapL,timesJson,htimes,
    travelTimes,hmapT,rfl⟩ := h
  set document : Document := ⟨stations,lines,travelTimes⟩
  rcases @addStations_cases nw _ _ hmapS with ⟨nw₁,hadd₁,henters,hnodup,hnew⟩ |
    ⟨what,nw₁,hadd₁,hbad⟩
  · have hastray : document.LeadsAstray nw ↔ addLines linesJson.elements nw₁ = none := by
      have hiff := @Document.linesGoAstray_iff document nw nw₁ henters
      rw [addLines_eq_none_iff hmapL]
      exact ⟨fun h => hiff.mpr h.line,fun h => ⟨hnodup,hnew,hiff.mp h⟩⟩
    have hexceeds : document.Exceeds nw ↔ (∃ nw₂, addLines linesJson.elements nw₁ = some (.ok (),nw₂)) ∧
        ∃ x ∈ travelTimes, x.Exceeds := by
      rw [addLines_ok_iff hmapL]
      simp only [@Document.accepts_iff document nw nw₁ henters]
      exact ⟨fun h => ⟨⟨h.lines_distinct,h.lines_accepted⟩,h.number⟩,
        fun h => ⟨hnodup,hnew,h.1.1,h.1.2,h.2⟩⟩
    rw [hastray,hexceeds,fromJson,hstations]
    simp only [hadd₁,hlines]
    rcases addLines linesJson.elements nw₁ with _ | ⟨_ | _,nw₂⟩
    · simp
    · simp
    · simpa [htimes] using setTravelTimes_eq_none_iff hmapT true
  · have hsome : nw.fromJson src ≠ none := by
      simp only [fromJson,hstations,hadd₁,ne_eq,reduceCtorEq,not_false_eq_true]
    refine ⟨fun hnone => absurd hnone hsome,fun hcases => absurd ?_ hbad⟩
    rcases hcases with hastray | hexceeds
    · exact ⟨hastray.stations_distinct,hastray.stations_new⟩
    · exact ⟨hexceeds.stations_distinct,hexceeds.stations_new⟩

/-- Loading a document stays in range exactly if it does not get to a route without stops, nor to a
travel time without a conversion. -/
theorem fromJson_inRange_iff (hnw : nw.Reachable) {src : Json} {document : Document}
    (h : Document.ofJson src = some document) :
    nw.StaysInRange src ↔ ¬document.LeadsAstray nw ∧ ¬document.Exceeds nw := by
  rw [← not_or,← fromJson_eq_none_iff h]
  constructor
  · rintro ⟨loaded,hloaded,-⟩ hnone
    rw [hnone] at hloaded
    cases hloaded
  · intro hsome
    obtain ⟨loaded,hloaded⟩ := Option.ne_none_iff_exists'.mp hsome
    exact ⟨loaded,hloaded,(hnw.fromJson hloaded).getRoutesServingStation_isSome⟩

/-- A line with a route of one stop, and a negative and a fractional travel time. -/
def roughLayout : Json :=
  .object [(ascii "stations",.array [.object [text "station_id" "A",text "name" "A"]]),
    (ascii "lines",.array [.object [text "line_id" "red",text "name" "Red",
      (ascii "routes",.array [.object [text "route_id" "r",text "direction" "inbound",
        text "line_id" "red",text "start_station_id" "A",text "end_station_id" "A",
        (ascii "route_stops",.array [.string (ascii "A")])]])]]),
    (ascii "travel_times",.array [time (.integer (-5)),time (.float (5/2))])]
where
  text (key value : String) : Bytes × Json := (ascii key,.string (ascii value))
  time (value : Json) : Json :=
    .object [text "start_station_id" "A",text "end_station_id" "A",(ascii "travel_time",value)]

theorem fromJson_inRange_roughLayout : empty.StaysInRange roughLayout := by
  obtain ⟨document,hdocument,hstops,htimes⟩ : ∃ document, Document.ofJson roughLayout = some document ∧
      (∀ line ∈ document.lines, ∀ route ∈ line.routes, route.stops ≠ []) ∧
        document.travelTimes = [.integer (-5),.float (5/2)] := ⟨_,rfl,by simp,rfl⟩
  refine (fromJson_inRange_iff .empty hdocument).mpr ⟨Document.not_leadsAstray hstops,fun hexceeds => ?_⟩
  obtain ⟨x,hx,hout⟩ := hexceeds.number
  rw [htimes] at hx
  simp only [List.mem_cons,List.not_mem_nil,or_false] at hx
  rcases hx with rfl | rfl
  · exact hout
  · exact hout (by norm_num)

def emptyRoute : Json :=
  .object [(ascii "stations",.array []),
    (ascii "lines",.array [.object [text "line_id" "red",text "name" "Red",
      (ascii "routes",.array [.object [text "route_id" "r",text "direction" "inbound",
        text "line_id" "red",text "start_station_id" "A",text "end_station_id" "A",
        (ascii "route_stops",.array [])]])]]),
    (ascii "travel_times",.array [])]
where
  text (key value : String) : Bytes × Json := (ascii key,.string (ascii value))

/-- The route without stops is read out of range. -/
theorem fromJson_emptyRoute : ¬∀ src document, Document.ofJson src = some document →
    empty.StaysInRange src := by
  intro hclaim
  obtain ⟨document,hdocument⟩ : ∃ document, Document.ofJson emptyRoute = some document := ⟨_,rfl⟩
  obtain ⟨loaded,hloaded,-⟩ := hclaim emptyRoute document hdocument
  have hnone : (empty.fromJson emptyRoute).isNone := rfl
  rw [hloaded] at hnone
  cases hnone

end TransportNetwork
end QuietRoute
