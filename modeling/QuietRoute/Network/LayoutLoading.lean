import QuietRoute.Network.LayoutFile
import QuietRoute.Network.TravelTimes

/-! What `FromJson` makes of a layout in which every field is present: which layouts it rejects, and
what the network holds after all others. -/
namespace QuietRoute

/-- A layout with the number of an entry instead of its conversion. -/
structure Layout where
  stations : List Station
  lines : List Line
  travelTimes : List (Sym2 Id × ℕ)

/-- An entry whose travel time is an integer from 0 up to `2^32`. -/
def entryOfJson (travelTimeJson : Json) : Option (Sym2 Id × ℕ) := do
  let startStationId ← travelTimeJson.stringAt (ascii "start_station_id")
  let endStationId ← travelTimeJson.stringAt (ascii "end_station_id")
  match ← travelTimeJson.field (ascii "travel_time") with
  | .integer n => if 0 ≤ n ∧ n < 2^32 then return (s(startStationId,endStationId),n.toNat) else none
  | _ => none

def Layout.ofJson (src : Json) : Option Layout := do
  let stations ← (← src.field (ascii "stations")).elements.mapM Station.ofJson
  let lines ← (← src.field (ascii "lines")).elements.mapM Line.ofJson
  let travelTimes ← (← src.field (ascii "travel_times")).elements.mapM entryOfJson
  return ⟨stations,lines,travelTimes⟩

theorem mapM_cons_eq_some {α β : Type} {f : α → Option β} {a : α} {as : List α} {bs : List β} :
    (a::as).mapM f = some bs ↔ ∃ b bs', f a = some b ∧ as.mapM f = some bs' ∧ bs = b::bs' := by
  simp only [List.mapM_cons,Option.bind_eq_bind,Option.bind_eq_some_iff,Option.pure_def,
    Option.some.injEq]
  constructor
  · rintro ⟨b,hb,bs',hbs',rfl⟩
    exact ⟨b,bs',hb,hbs',rfl⟩
  · rintro ⟨b,bs',hb,hbs',rfl⟩
    exact ⟨b,hb,bs',hbs',rfl⟩

/-- Entries with distinct keys, one after the other: what is good after the first is good and has
another key. -/
theorem nodup_keys_cons_iff {α κ : Type} {key : α → κ} {good next : α → Prop} {a : α} {as : List α}
    (ha : good a) (hnext : ∀ b, next b ↔ key a ≠ key b ∧ good b) :
    ((as.map key).Nodup ∧ ∀ b ∈ as, next b) ↔
      ((a::as).map key).Nodup ∧ ∀ b ∈ a::as, good b := by
  simp only [hnext,List.map_cons,List.nodup_cons,List.mem_map,List.mem_cons,forall_eq_or_imp,
    not_exists,not_and]
  constructor
  · rintro ⟨hnodup,hrest⟩
    exact ⟨⟨fun b hb heq => (hrest b hb).1 heq.symm,hnodup⟩,ha,fun b hb => (hrest b hb).2⟩
  · rintro ⟨⟨hdistinct,hnodup⟩,-,hrest⟩
    exact ⟨hnodup,fun b hb => ⟨fun heq => hdistinct b hb heq.symm,hrest b hb⟩⟩

namespace TransportNetwork

variable {nw nw' : TransportNetwork} {line line' : LineInternal} {routes : List Route} {ok : Bool}

/-! Nobody is counted while a network is built. -/

def NoPassengers (nw : TransportNetwork) : Prop := ∀ S n, nw.getPassengerCount S = some n → n = 0

theorem getPassengerCount_updateEdges (nw : TransportNetwork) (k : Id)
    (f : List GraphEdge → List GraphEdge) (S : Id) :
    (nw.updateEdges k f).getPassengerCount S = nw.getPassengerCount S := by
  simp only [getPassengerCount,getStation,updateEdges,UnorderedMap.find_modify]
  split_ifs
  · rw [Option.map_map]
    rfl
  · rfl

theorem getPassengerCount_addRoutes (h : addRoutes routes nw line = some (ok,nw',line')) (S : Id) :
    nw'.getPassengerCount S = nw.getPassengerCount S :=
  @addRoutes_keeps nw nw' _ (fun nw => nw.getPassengerCount S)
    (fun nw k f => getPassengerCount_updateEdges nw k f S) _ _ _ _ h

theorem getPassengerCount_setTravelTime (nw : TransportNetwork) (A B : Id) (t : UInt32) (S : Id) :
    (nw.setTravelTime A B t).2.getPassengerCount S = nw.getPassengerCount S := by
  rw [setTravelTime]
  split_ifs
  · rfl
  · simp only [setEdgeTimes,getPassengerCount_updateEdges]

/-! The stations. -/

/-- `nw'` is `nw` with some stations more. -/
structure Enters (nw nw' : TransportNetwork) (stations : List Station) : Prop where
  isSome_getStation : ∀ S, (nw'.getStation S).isSome ↔
    S ∈ stations.map Station.id ∨ (nw.getStation S).isSome
  edgesFrom_eq : ∀ S, nw'.edgesFrom S = nw.edgesFrom S
  lines_eq : nw'.lines = nw.lines
  noPassengers : nw.NoPassengers → nw'.NoPassengers

theorem enters_nil (nw : TransportNetwork) : nw.Enters nw [] := by
  constructor <;> simp

theorem addStation_new {station : Station} (h : nw.getStation station.id = none) :
    (nw.addStation station).1 = true ∧ nw.Enters (nw.addStation station).2 [station] := by
  have hguard : ¬(nw.getStation station.id).isSome = true := by simp [h]
  refine ⟨by rw [addStation,if_neg hguard],?_,edgesFrom_addStation nw station,
    lines_addStation nw station,?_⟩
  · intro S
    rw [isSome_getStation_addStation,List.map_singleton,List.mem_singleton,@eq_comm _ S]
  · intro hno S n hn
    rw [addStation,if_neg hguard] at hn
    simp only [getPassengerCount,getStation,UnorderedMap.find_emplace] at hn
    split_ifs at hn
    · rw [show nw.stations.find station.id = none from h] at hn
      exact (Option.some.inj hn).symm
    · exact hno S n hn

theorem addStation_known {station : Station} (h : (nw.getStation station.id).isSome) :
    nw.addStation station = (false,nw) := by
  rw [addStation,if_pos h]

theorem Enters.cons {next : TransportNetwork} {station : Station} {stations : List Station}
    (h : nw.Enters next [station]) (h' : next.Enters nw' stations) :
    nw.Enters nw' (station::stations) where
  isSome_getStation S := by
    rw [h'.isSome_getStation,h.isSome_getStation]
    simp only [List.map_cons,List.map_nil,List.mem_cons,List.not_mem_nil,or_false]
    tauto
  edgesFrom_eq S := (h'.edgesFrom_eq S).trans (h.edgesFrom_eq S)
  lines_eq := h'.lines_eq.trans h.lines_eq
  noPassengers hno := h'.noPassengers (h.noPassengers hno)

/-- All stations are added if no id occurs twice; otherwise the first that does is not. -/
theorem addStations_cases {jsons : List Json} {stations : List Station}
    (h : jsons.mapM Station.ofJson = some stations) :
    (∃ nw', addStations jsons nw = (.ok (),nw') ∧ nw.Enters nw' stations ∧
      (stations.map Station.id).Nodup ∧ ∀ s ∈ stations, nw.getStation s.id = none) ∨
    ∃ what nw', addStations jsons nw = (.error (.runtimeError what),nw') ∧
      ¬((stations.map Station.id).Nodup ∧ ∀ s ∈ stations, nw.getStation s.id = none) := by
  induction jsons generalizing nw stations with
  | nil =>
    obtain rfl : [] = stations := Option.some.inj h
    exact Or.inl ⟨nw,rfl,enters_nil nw,List.nodup_nil,by simp⟩
  | cons json jsons ih =>
    obtain ⟨station,rest,hstation,hrest,rfl⟩ := mapM_cons_eq_some.mp h
    cases hknown : nw.getStation station.id with
    | some node =>
      have hfalse := @addStation_known nw station (by simp [hknown])
      refine Or.inr ⟨_,nw,by simp only [addStations,hstation,hfalse]; rfl,?_⟩
      rintro ⟨-,hnew⟩
      have hnone := hnew station List.mem_cons_self
      rw [hknown] at hnone
      cases hnone
    | none =>
      obtain ⟨htrue,henters⟩ := addStation_new hknown
      have hadd : addStations (json::jsons) nw = addStations jsons (nw.addStation station).2 := by
        rw [addStations,hstation]
        simp only
        rw [show nw.addStation station = (true,(nw.addStation station).2) from Prod.ext htrue rfl]
      -- the stations after the first must be new to the network that has the first
      have hnone : ∀ s : Station, (nw.addStation station).2.getStation s.id = none ↔
          station.id ≠ s.id ∧ nw.getStation s.id = none := by
        intro s
        rw [← Option.not_isSome_iff_eq_none,isSome_getStation_addStation,not_or,
          Option.not_isSome_iff_eq_none]
      rw [hadd,← @nodup_keys_cons_iff _ _ Station.id (nw.getStation ·.id = none) _ _ _ hknown hnone]
      rcases @ih (nw.addStation station).2 rest hrest with ⟨nw',hok,henters',hgood⟩ | hbad
      · exact Or.inl ⟨nw',hok,henters.cons henters',hgood⟩
      · exact Or.inr hbad

/-! The lines. -/

def Fits (nw : TransportNetwork) (routes : UnorderedMap Id RouteInternal) (route : Route) : Prop :=
  routes.find route.id = none ∧ ∀ stop ∈ route.stops, (nw.getStation stop).isSome

theorem fits_addEdges {route r : Route} :
    (addEdges (nw.makeRoute route line) 0 route.stops nw).Fits
      (line.routes.set route.id (nw.makeRoute route line)) r ↔
        route.id ≠ r.id ∧ nw.Fits line.routes r := by
  simp only [Fits,isSome_getStation_addEdges,UnorderedMap.find_set]
  by_cases hid : route.id = r.id <;> simp [hid]

theorem addRouteToLine_total {route : Route} (hne : route.stops ≠ []) :
    ∃ ok nw' line', nw.addRouteToLine route line = some (ok,nw',line') ∧
      (ok = true ↔ nw.Fits line.routes route) := by
  cases hresult : nw.addRouteToLine route line with
  | none =>
    rw [addRouteToLine] at hresult
    split_ifs at hresult
  | some result =>
    obtain ⟨ok,nw',line'⟩ := result
    refine ⟨ok,nw',line',rfl,?_⟩
    cases ok with
    | true =>
      obtain ⟨hnew,hknown,-⟩ := addRouteToLine_eq_true hresult
      exact ⟨fun _ => ⟨hnew,hknown⟩,fun _ => rfl⟩
    | false =>
      refine ⟨fun h => absurd h (by simp),fun hfits => ?_⟩
      rcases (addRouteToLine_eq_false hresult).2 with hdup | ⟨stop,hstop,hnone⟩
      · simp [hfits.1] at hdup
      · have hsome := hfits.2 stop hstop
        simp [hnone] at hsome

/-- A line is complete if none of its route ids occurs twice and all its stops are known. -/
theorem addRoutes_total (hne : ∀ route ∈ routes, route.stops ≠ []) :
    ∃ ok nw' line', addRoutes routes nw line = some (ok,nw',line') ∧
      (ok = true ↔ (routes.map Route.id).Nodup ∧ ∀ route ∈ routes, nw.Fits line.routes route) := by
  induction routes generalizing nw line with
  | nil => exact ⟨true,nw,line,rfl,by simp⟩
  | cons route routes ih =>
    obtain ⟨ok,next,line'',hadd,hok⟩ :=
      @addRouteToLine_total nw line route (hne route List.mem_cons_self)
    cases ok with
    | false =>
      refine ⟨false,next,line'',by simp only [addRoutes,hadd],?_⟩
      refine ⟨fun h => absurd h (by simp),fun hgood => hok.mpr ?_⟩
      exact hgood.2 route List.mem_cons_self
    | true =>
      obtain ⟨ok',nw',line',hrest,hok'⟩ := @ih next line'' fun r hr => hne r (List.mem_cons_of_mem _ hr)
      refine ⟨ok',nw',line',by simp only [addRoutes,hadd]; exact hrest,?_⟩
      obtain ⟨hnew,hknown,-,rfl,rfl⟩ := addRouteToLine_eq_true hadd
      -- the routes after the first must fit into a line that has the first
      rw [hok',nodup_keys_cons_iff ⟨hnew,hknown⟩ fun r => fits_addEdges]

def Complete (nw : TransportNetwork) (line : Line) : Prop :=
  (line.routes.map Route.id).Nodup ∧
    ∀ route ∈ line.routes, ∀ stop ∈ route.stops, (nw.getStation stop).isSome

theorem acceptedRoutes_eq_self {taken : List Id} (hnodup : (routes.map Route.id).Nodup)
    (htaken : ∀ route ∈ routes, route.id ∉ taken)
    (hknown : ∀ route ∈ routes, ∀ stop ∈ route.stops, (nw.getStation stop).isSome) :
    nw.acceptedRoutes taken routes = routes := by
  induction routes generalizing taken with
  | nil => rfl
  | cons route routes ih =>
    obtain ⟨hid,hrest⟩ := List.nodup_cons.mp hnodup
    have haccepted : ¬(route.id ∈ taken ∨ ∃ stop ∈ route.stops, nw.getStation stop = none) := by
      rintro (hdup | ⟨stop,hstop,hnone⟩)
      · exact htaken route List.mem_cons_self hdup
      · have hsome := hknown route List.mem_cons_self stop hstop
        simp [hnone] at hsome
    rw [acceptedRoutes,if_neg haccepted]
    congr 1
    refine ih hrest (fun r hr hmem => ?_) fun r hr => hknown r (List.mem_cons_of_mem _ hr)
    rcases List.mem_cons.mp hmem with heq | hold
    · exact hid (List.mem_map.mpr ⟨r,hr,heq⟩)
    · exact htaken r (List.mem_cons_of_mem _ hr) hold

structure Draws (nw nw' : TransportNetwork) (lines : List Line) : Prop where
  toExtends : nw.Extends nw' (lines.flatMap Line.routes)
  getLine_isSome : ∀ id, (nw'.getLine id).isSome ↔
    id ∈ lines.map Line.id ∨ (nw.getLine id).isSome
  getPassengerCount_eq : ∀ S, nw'.getPassengerCount S = nw.getPassengerCount S

theorem draws_nil (nw : TransportNetwork) : nw.Draws nw [] := by
  constructor
  · exact extends_nil nw
  · simp
  · simp

theorem addLine_cases {newLine : Line} (hne : ∀ route ∈ newLine.routes, route.stops ≠ []) :
    (∃ nw', nw.addLine newLine = some (true,nw') ∧ nw.Draws nw' [newLine] ∧
      nw.getLine newLine.id = none ∧ nw.Complete newLine) ∨
    ∃ nw', nw.addLine newLine = some (false,nw') ∧
      ¬(nw.getLine newLine.id = none ∧ nw.Complete newLine) := by
  cases hdup : nw.getLine newLine.id with
  | some known =>
    exact Or.inr ⟨nw,by rw [addLine,if_pos (by simp [hdup])],fun h => by simp at h⟩
  | none =>
    obtain ⟨ok,next,lineInternal,hroutes,hok⟩ :=
      @addRoutes_total nw ⟨newLine.id,newLine.name,.empty⟩ _ hne
    have hguard : ¬(nw.getLine newLine.id).isSome = true := by simp [hdup]
    have hcomplete : ok = true ↔ nw.Complete newLine := by
      rw [hok]
      simp [Complete,Fits]
    cases ok with
    | false =>
      refine Or.inr ⟨next,by rw [addLine,if_neg hguard]; simp only [hroutes],?_⟩
      rintro ⟨-,hgood⟩
      exact absurd (hcomplete.mpr hgood) (by simp)
    | true =>
      have hgood := hcomplete.mp rfl
      have hadd : nw.addLine newLine = some (true,{next with
          lines := next.lines.emplace newLine.id lineInternal}) := by
        rw [addLine,if_neg hguard]
        simp only [hroutes]
      refine Or.inl ⟨_,hadd,⟨?_,?_,?_⟩,rfl,hgood⟩
      · have hext := extends_addLine hadd
        rwa [newRoutes,if_neg hguard,acceptedRoutes_eq_self hgood.1 (by simp) hgood.2,
          ← show [newLine].flatMap Line.routes = newLine.routes by simp] at hext
      · intro id
        have hlines : next.lines = nw.lines := lines_addRoutes hroutes
        simp only [getLine,UnorderedMap.find_emplace,hlines,List.map_cons,List.map_nil,
          List.mem_singleton]
        by_cases hid : newLine.id = id
        · simp [hid]
        · simp [hid,Ne.symm hid]
      · intro S
        exact getPassengerCount_addRoutes hroutes S

theorem Complete.congr {newLine : Line}
    (h : ∀ S, (nw'.getStation S).isSome = (nw.getStation S).isSome) :
    nw'.Complete newLine ↔ nw.Complete newLine := by
  simp only [Complete,h]

theorem Draws.cons {next : TransportNetwork} {newLine : Line} {lines : List Line}
    (h : nw.Draws next [newLine]) (h' : next.Draws nw' lines) : nw.Draws nw' (newLine::lines) where
  toExtends := by
    have hext := h.toExtends.trans h'.toExtends
    rwa [List.flatMap_singleton,← List.flatMap_cons] at hext
  getLine_isSome id := by
    rw [h'.getLine_isSome,h.getLine_isSome]
    simp only [List.map_cons,List.map_nil,List.mem_cons,List.not_mem_nil,or_false]
    tauto
  getPassengerCount_eq S := (h'.getPassengerCount_eq S).trans (h.getPassengerCount_eq S)

/-- All lines are added if no id occurs twice and all are complete; otherwise the first that is
not is refused. -/
theorem addLines_cases {jsons : List Json} {lines : List Line}
    (h : jsons.mapM Line.ofJson = some lines)
    (hne : ∀ line ∈ lines, ∀ route ∈ line.routes, route.stops ≠ []) :
    (∃ nw', addLines jsons nw = some (.ok (),nw') ∧ nw.Draws nw' lines ∧
      (lines.map Line.id).Nodup ∧ ∀ line ∈ lines, nw.getLine line.id = none ∧ nw.Complete line) ∨
    ∃ what nw', addLines jsons nw = some (.error (.runtimeError what),nw') ∧
      ¬((lines.map Line.id).Nodup ∧
        ∀ line ∈ lines, nw.getLine line.id = none ∧ nw.Complete line) := by
  induction jsons generalizing nw lines with
  | nil =>
    obtain rfl : [] = lines := Option.some.inj h
    exact Or.inl ⟨nw,rfl,draws_nil nw,List.nodup_nil,by simp⟩
  | cons json jsons ih =>
    obtain ⟨newLine,rest,hline,hrest,rfl⟩ := mapM_cons_eq_some.mp h
    rcases @addLine_cases nw newLine (hne newLine List.mem_cons_self) with
      ⟨next,hadd,hdraws,hnew,hcomplete⟩ | ⟨next,hadd,hbad⟩
    · have hadds : addLines (json::jsons) nw = addLines jsons next := by
        rw [addLines,hline]
        simp only [hadd]
      -- the lines after the first must be good for the network that has the first
      have hgood : ∀ line : Line, next.getLine line.id = none ∧ next.Complete line ↔
          newLine.id ≠ line.id ∧ nw.getLine line.id = none ∧ nw.Complete line := by
        intro line
        rw [← Option.not_isSome_iff_eq_none,hdraws.getLine_isSome,not_or,
          Option.not_isSome_iff_eq_none,List.map_singleton,List.mem_singleton,ne_comm,
          Complete.congr hdraws.toExtends.isSome_getStation,and_assoc]
      rw [hadds,← nodup_keys_cons_iff ⟨hnew,hcomplete⟩ hgood]
      rcases @ih next rest hrest fun line hl => hne line (List.mem_cons_of_mem _ hl) with
        ⟨nw',hok,hdraws',hall⟩ | hbad
      · exact Or.inl ⟨nw',hok,hdraws.cons hdraws',hall⟩
      · exact Or.inr hbad
    · refine Or.inr ⟨_,next,by rw [addLines,hline]; simp only [hadd]; rfl,?_⟩
      exact fun hall => hbad (hall.2 newLine List.mem_cons_self)

/-! The travel times. -/

def JoinedPair (nw : TransportNetwork) (p : Sym2 Id) : Prop :=
  ∃ S, ∃ e ∈ nw.edgesFrom S, p = s(S,e.nextStop)

theorem joined_iff {A B : Id} : nw.Joined A B ↔ nw.JoinedPair s(A,B) := by
  constructor
  · rintro (⟨e,he,rfl⟩ | ⟨e,he,rfl⟩)
    · exact ⟨A,e,he,rfl⟩
    · exact ⟨B,e,he,Sym2.eq_swap⟩
  · rintro ⟨S,e,he,hpair⟩
    rcases Sym2.eq_iff.mp hpair with ⟨rfl,rfl⟩ | ⟨rfl,rfl⟩
    · exact Or.inl ⟨e,he,rfl⟩
    · exact Or.inr ⟨e,he,rfl⟩

theorem JoinedPair.known {time : Sym2 Id → UInt32} {A B : Id} (h : nw.JoinedPair s(A,B))
    (htimed : nw.Timed time) : (nw.getStation A).isSome ∧ (nw.getStation B).isSome := by
  obtain ⟨S,e,he,hpair⟩ := h
  rcases Sym2.eq_iff.mp hpair with ⟨rfl,rfl⟩ | ⟨rfl,rfl⟩
  · exact ⟨isSome_getStation_of_mem he,htimed.known _ e he⟩
  · exact ⟨htimed.known _ e he,isSome_getStation_of_mem he⟩

theorem joinedPair_setTravelTime (nw : TransportNetwork) (A B : Id) (t : UInt32) (p : Sym2 Id) :
    (nw.setTravelTime A B t).2.JoinedPair p ↔ nw.JoinedPair p := by
  induction p using Sym2.ind with
  | h C D => rw [← joined_iff,← joined_iff,joined_setTravelTime]

theorem setTravelTime_succeeds {time : Sym2 Id → UInt32} (h : nw.Timed time) (A B : Id)
    (t : UInt32) : (nw.setTravelTime A B t).1 = true ↔ nw.JoinedPair s(A,B) := by
  rw [setTravelTime_eq_true_iff,joined_iff]
  exact ⟨And.right,fun hjoined => ⟨hjoined.known h,hjoined⟩⟩

def lastTime (entries : List (Sym2 Id × ℕ)) (p : Sym2 Id) : Option ℕ :=
  ((entries.filter fun e => e.1 = p).getLast?).map Prod.snd

theorem lastTime_cons (e : Sym2 Id × ℕ) (entries : List (Sym2 Id × ℕ)) (p : Sym2 Id) (n : ℕ) :
    (lastTime (e::entries) p).getD n = (lastTime entries p).getD (if e.1 = p then e.2 else n) := by
  by_cases heq : e.1 = p
  · simp only [lastTime,List.filter_cons,heq,decide_true,if_true,List.getLast?_cons,Option.map_some,
      Option.getD_some]
    cases (entries.filter fun e => e.1 = p).getLast? <;> rfl
  · simp [lastTime,heq]

theorem exists_entry {json : Json} {e : Sym2 Id × ℕ} (h : entryOfJson json = some e) :
    ∃ A B t, TravelTimeEntry.ofJson json = some ⟨A,B,some t⟩ ∧ e.1 = s(A,B) ∧ t.toNat = e.2 := by
  simp only [entryOfJson,Option.bind_eq_bind,Option.bind_eq_some_iff] at h
  obtain ⟨A,hA,B,hB,value,hvalue,h⟩ := h
  split at h
  · rename_i n
    split_ifs at h with hrange
    obtain rfl := Option.some.inj h
    refine ⟨A,B,UInt32.ofInt n,?_,rfl,?_⟩
    · simp only [TravelTimeEntry.ofJson,hA,hB,hvalue,Json.getUnsigned,Option.bind_eq_bind,
        Option.bind_some]
      rfl
    · have hmod : n % 2^32 = n := Int.emod_eq_of_lt hrange.1 hrange.2
      rw [UInt32.ofInt,UInt32.toNat_ofNat']
      omega
  · cases h

structure Schedules (nw nw' : TransportNetwork) (entries : List (Sym2 Id × ℕ))
    (time time' : Sym2 Id → UInt32) : Prop where
  timed : nw'.Timed time'
  joinedPair_iff : ∀ p, nw'.JoinedPair p ↔ nw.JoinedPair p
  time_eq : ∀ p, nw.JoinedPair p → (time' p).toNat = (lastTime entries p).getD (time p).toNat
  getPassengerCount_eq : ∀ S, nw'.getPassengerCount S = nw.getPassengerCount S

theorem schedules_one {time : Sym2 Id → UInt32} (h : nw.Timed time) (A B : Id) (t : UInt32) :
    ∃ time', nw.Schedules (nw.setTravelTime A B t).2 [(s(A,B),t.toNat)] time time' := by
  have hjoined := joinedPair_setTravelTime nw A B t
  have hcount := getPassengerCount_setTravelTime nw A B t
  by_cases hknown : (nw.getStation A).isSome ∧ (nw.getStation B).isSome
  · refine ⟨_,h.setTravelTime hknown.1 hknown.2 t,hjoined,fun p _ => ?_,hcount⟩
    rw [lastTime_cons]
    by_cases heq : p = s(A,B)
    · rw [heq,Function.update_self,if_pos rfl]
      rfl
    · rw [Function.update_of_ne heq,if_neg (Ne.symm heq)]
      rfl
  · refine ⟨time,?_,hjoined,fun p hp => ?_,hcount⟩
    · rw [setTravelTime_unknown hknown]
      exact h
    · have hne : s(A,B) ≠ p := fun heq => hknown ((heq ▸ hp).known h)
      rw [lastTime_cons,if_neg hne]
      rfl

theorem setTravelTimes_spec {jsons : List Json} {entries : List (Sym2 Id × ℕ)}
    (h : jsons.mapM entryOfJson = some entries) (flag : Bool) {time : Sym2 Id → UInt32}
    (htimed : nw.Timed time) : ∃ ok nw' time', setTravelTimes jsons flag nw = some (.ok ok,nw') ∧
      (ok = true ↔ flag = true ∧ ∀ e ∈ entries, nw.JoinedPair e.1) ∧
      nw.Schedules nw' entries time time' := by
  induction jsons generalizing nw entries flag time with
  | nil =>
    obtain rfl : [] = entries := Option.some.inj h
    exact ⟨flag,nw,time,rfl,by simp,htimed,fun _ => Iff.rfl,fun _ _ => rfl,fun _ => rfl⟩
  | cons json jsons ih =>
    obtain ⟨e,rest,he,hrest,rfl⟩ := mapM_cons_eq_some.mp h
    obtain ⟨A,B,t,hjson,hpair,htime⟩ := exists_entry he
    obtain ⟨time₁,hone⟩ := schedules_one htimed A B t
    obtain ⟨ok,nw',time',hset,hok,hall⟩ :=
      ih hrest (flag && (nw.setTravelTime A B t).1) hone.timed
    refine ⟨ok,nw',time',?_,?_,hall.timed,?_,?_,?_⟩
    · simp only [setTravelTimes,hjson,Option.bind_eq_bind,Option.bind_some]
      exact hset
    · rw [hok,Bool.and_eq_true,setTravelTime_succeeds htimed]
      simp only [hone.joinedPair_iff,List.mem_cons,forall_eq_or_imp,hpair,and_assoc]
    · exact fun p => (hall.joinedPair_iff p).trans (hone.joinedPair_iff p)
    · intro p hp
      have hfirst := hone.time_eq p hp
      rw [lastTime_cons,← hpair,htime] at hfirst
      rw [hall.time_eq p ((hone.joinedPair_iff p).mpr hp),lastTime_cons,hfirst]
      rfl
    · exact fun S => (hall.getPassengerCount_eq S).trans (hone.getPassengerCount_eq S)

/-! The whole document. -/

end TransportNetwork

namespace Layout

open TransportNetwork

def Consecutive (layout : Layout) (p : Sym2 Id) : Prop :=
  ∃ line ∈ layout.lines, ∃ route ∈ line.routes, ∃ A B, Hop route.stops A B ∧ p = s(A,B)

def Lists (layout : Layout) (S : Id) : Prop := S ∈ layout.stations.map Station.id

/-- An id that repeats, or a stop that is no station. -/
def Clashes (layout : Layout) : Prop :=
  ¬(layout.stations.map Station.id).Nodup ∨ ¬(layout.lines.map Line.id).Nodup ∨
    (∃ line ∈ layout.lines, ¬(line.routes.map Route.id).Nodup) ∨
      ∃ line ∈ layout.lines, ∃ route ∈ line.routes, ∃ stop ∈ route.stops, ¬layout.Lists stop

structure Describes (layout : Layout) (nw : TransportNetwork) : Prop where
  getTravelTime_consecutive : ∀ A B, layout.Consecutive s(A,B) →
    (nw.getTravelTime A B).toNat = (lastTime layout.travelTimes s(A,B)).getD 0
  getTravelTime_otherwise : ∀ A B, ¬layout.Consecutive s(A,B) → nw.getTravelTime A B = 0
  getPassengerCount_station : ∀ S, layout.Lists S → nw.getPassengerCount S = some 0
  getPassengerCount_otherwise : ∀ S, ¬layout.Lists S → nw.getPassengerCount S = none

theorem consecutive_iff {layout : Layout} {nw nw' : TransportNetwork}
    (hedges : ∀ S, nw.edgesFrom S = []) (h : nw.Extends nw' (layout.lines.flatMap Line.routes))
    (p : Sym2 Id) : nw'.JoinedPair p ↔ layout.Consecutive p := by
  constructor
  · rintro ⟨S,e,he,rfl⟩
    rcases h.cases S e he with hold | ⟨-,route,hroute,hhop⟩
    · rw [hedges] at hold
      cases hold
    · obtain ⟨line,hline,hmem⟩ := List.mem_flatMap.mp hroute
      exact ⟨line,hline,route,hmem,S,e.nextStop,hhop,rfl⟩
  · rintro ⟨line,hline,route,hroute,A,B,hhop,rfl⟩
    obtain ⟨e,he,rfl,-⟩ := h.added route (List.mem_flatMap.mpr ⟨line,hline,hroute⟩) A B hhop
    exact ⟨A,e,he,rfl⟩

theorem not_clashes_iff {layout : Layout} {nw : TransportNetwork}
    (hstation : ∀ S, (nw.getStation S).isSome ↔ layout.Lists S) (hline : ∀ id, nw.getLine id = none)
    (hnodup : (layout.stations.map Station.id).Nodup) :
    ((layout.lines.map Line.id).Nodup ∧
      ∀ line ∈ layout.lines, nw.getLine line.id = none ∧ nw.Complete line) ↔ ¬layout.Clashes := by
  simp only [Clashes,Complete,hstation,hline,true_and,not_or,not_exists,not_and,not_not,hnodup]
  constructor
  · rintro ⟨hlines,hall⟩
    exact ⟨hlines,fun line hl => (hall line hl).1,
      fun line hl route hr stop hs => (hall line hl).2 route hr stop hs⟩
  · rintro ⟨hlines,hroutes,hstops⟩
    exact ⟨hlines,fun line hl => ⟨hroutes line hl,
      fun route hr stop hs => hstops line hl route hr stop hs⟩⟩

end Layout

namespace TransportNetwork

open Layout

variable {nw nw' : TransportNetwork}

structure OnlyStations (nw : TransportNetwork) (layout : Layout) : Prop where
  isSome_getStation : ∀ S, (nw.getStation S).isSome ↔ layout.Lists S
  edgesFrom_eq : ∀ S, nw.edgesFrom S = []
  getLine_eq : ∀ id, nw.getLine id = none
  noPassengers : nw.NoPassengers

theorem Enters.onlyStations {layout : Layout} (h : empty.Enters nw layout.stations) :
    nw.OnlyStations layout where
  isSome_getStation S := by
    rw [h.isSome_getStation]
    simp [getStation,empty,Layout.Lists]
  edgesFrom_eq := h.edgesFrom_eq
  getLine_eq id := by
    rw [getLine,h.lines_eq]
    rfl
  noPassengers := h.noPassengers fun S n hn => by simp [getPassengerCount,getStation,empty] at hn

theorem OnlyStations.timed {layout : Layout} (h : nw.OnlyStations layout) :
    nw.Timed fun _ => 0 := by
  constructor <;> simp [h.edgesFrom_eq]

/-- Lines and travel times on top of the stations make the network that the layout describes. -/
theorem OnlyStations.describes {layout : Layout} {nw₁ nw₂ nw₃ : TransportNetwork}
    {time : Sym2 Id → UInt32} (h : nw₁.OnlyStations layout) (hdraws : nw₁.Draws nw₂ layout.lines)
    (hsched : nw₂.Schedules nw₃ layout.travelTimes (fun _ => 0) time) : layout.Describes nw₃ := by
  have hjoined : ∀ A B, nw₃.Joined A B ↔ layout.Consecutive s(A,B) := by
    intro A B
    rw [joined_iff,hsched.joinedPair_iff,consecutive_iff h.edgesFrom_eq hdraws.toExtends]
  have hcount : ∀ S, nw₃.getPassengerCount S = nw₁.getPassengerCount S := fun S =>
    (hsched.getPassengerCount_eq S).trans (hdraws.getPassengerCount_eq S)
  refine ⟨?_,?_,?_,?_⟩
  · intro A B hcons
    have htime := hsched.time_eq s(A,B) (by
      rw [← hsched.joinedPair_iff,← joined_iff]
      exact (hjoined A B).mpr hcons)
    rw [(hsched.timed.getTravelTime_eq A B).1 ((hjoined A B).mpr hcons),htime]
    rfl
  · intro A B hcons
    exact (hsched.timed.getTravelTime_eq A B).2 fun hj => hcons ((hjoined A B).mp hj)
  · intro S hS
    rw [hcount]
    obtain ⟨node,hnode⟩ := Option.isSome_iff_exists.mp ((h.isSome_getStation S).mpr hS)
    have hsome : nw₁.getPassengerCount S = some node.passengerCount := by
      rw [getPassengerCount,hnode]
      rfl
    rw [hsome,h.noPassengers S _ hsome]
  · intro S hS
    rw [hcount,getPassengerCount,Option.map_eq_none_iff,← Option.not_isSome_iff_eq_none,
      h.isSome_getStation]
    exact hS

/-- A layout is rejected exactly if an id repeats or a stop is missing, and is otherwise loaded as it
is written; the result tells whether every travel time has found its edges. -/
theorem fromJson_layout {src : Json} {layout : Layout} (h : Layout.ofJson src = some layout)
    (hne : ∀ line ∈ layout.lines, ∀ route ∈ line.routes, route.stops ≠ []) :
    ∃ loaded, empty.fromJson src = some loaded ∧
      ((∃ what, loaded.1 = .error (.runtimeError what)) ↔ layout.Clashes) ∧
      (¬layout.Clashes → layout.Describes loaded.2 ∧ ∃ ok, loaded.1 = .ok ok ∧
        (ok = true ↔ ∀ entry ∈ layout.travelTimes, layout.Consecutive entry.1 ∧
          ∀ S ∈ entry.1, layout.Lists S)) := by
  simp only [Layout.ofJson,Option.bind_eq_bind,Option.bind_eq_some_iff,Option.pure_def,
    Option.some.injEq] at h
  obtain ⟨stationsJson,hstations,stations,hmapS,linesJson,hlines,lines,hmapL,timesJson,htimes,
    travelTimes,hmapT,rfl⟩ := h
  set layout : Layout := ⟨stations,lines,travelTimes⟩
  rcases @addStations_cases empty _ _ hmapS with ⟨nw₁,hadd₁,henters,hnodup,-⟩ |
    ⟨what,nw₁,hadd₁,hbad⟩
  · have honly : nw₁.OnlyStations layout := henters.onlyStations
    have hgood := not_clashes_iff honly.isSome_getStation honly.getLine_eq hnodup
    rcases @addLines_cases nw₁ _ _ hmapL hne with ⟨nw₂,hadd₂,hdraws,hall⟩ |
      ⟨what,nw₂,hadd₂,hbad⟩
    · have hclash := hgood.mp hall
      have htimed := honly.timed.extends hdraws.toExtends fun _ _ _ _ _ => rfl
      obtain ⟨ok,nw₃,time,hset,hok,hsched⟩ := setTravelTimes_spec hmapT true htimed
      refine ⟨(.ok ok,nw₃),?_,?_,fun _ => ⟨honly.describes hdraws hsched,ok,rfl,?_⟩⟩
      · simp only [fromJson,hstations,hadd₁,hlines,hadd₂,htimes]
        exact hset
      · simp [hclash]
      · have hjoined := @consecutive_iff layout _ _ honly.edgesFrom_eq hdraws.toExtends
        rw [hok]
        simp only [hjoined,true_and]
        refine forall₂_congr fun entry _ => ⟨fun hcons => ⟨hcons,fun S hS => ?_⟩,And.left⟩
        obtain ⟨T,hpair⟩ := hS
        rw [hpair,← hjoined] at hcons
        rw [← honly.isSome_getStation,← hdraws.toExtends.isSome_getStation]
        exact (hcons.known htimed).1
    · have hclash : layout.Clashes := not_not.mp fun hno => hbad (hgood.mpr hno)
      refine ⟨_,by simp only [fromJson,hstations,hadd₁,hlines,hadd₂]; rfl,?_,?_⟩
      · exact ⟨fun _ => hclash,fun _ => ⟨what,rfl⟩⟩
      · exact fun hno => absurd hclash hno
  · have hclash : layout.Clashes := by
      left
      intro hnodup
      exact hbad ⟨hnodup,fun _ _ => rfl⟩
    refine ⟨_,by simp only [fromJson,hstations,hadd₁]; rfl,?_,fun hno => absurd hclash hno⟩
    exact ⟨fun _ => hclash,fun _ => ⟨what,rfl⟩⟩

/-- Two stations, a line that joins them, and a time for it the other way round. -/
def smallLayout : Json :=
  .object [(ascii "stations",.array [station "A",station "B"]),
    (ascii "lines",.array [.object [text "line_id" "red",text "name" "Red",
      (ascii "routes",.array [.object [text "route_id" "r",text "direction" "inbound",
        text "line_id" "red",text "start_station_id" "A",text "end_station_id" "B",
        (ascii "route_stops",.array [.string (ascii "A"),.string (ascii "B")])]])]]),
    (ascii "travel_times",.array [.object [text "start_station_id" "B",text "end_station_id" "A",
      (ascii "travel_time",.integer 5)]])]
where
  text (key value : String) : Bytes × Json := (ascii key,.string (ascii value))
  station (name : String) : Json := .object [text "station_id" name,text "name" name]

theorem fromJson_smallLayout : ∃ loaded, empty.fromJson smallLayout = some loaded ∧
    loaded.2.getTravelTime (ascii "A") (ascii "B") = 5 := by
  let route : Route := ⟨ascii "r",ascii "inbound",ascii "red",ascii "A",ascii "B",
    [ascii "A",ascii "B"]⟩
  let layout : Layout := ⟨[⟨ascii "A",ascii "A"⟩,⟨ascii "B",ascii "B"⟩],
    [⟨ascii "red",ascii "Red",[route]⟩],[(s(ascii "B",ascii "A"),5)]⟩
  have hlayout : Layout.ofJson smallLayout = some layout := rfl
  obtain ⟨loaded,hloaded,-,hdescribes⟩ := fromJson_layout hlayout (by simp [layout,route])
  refine ⟨loaded,hloaded,?_⟩
  have hclashes : ¬layout.Clashes := by
    simp only [Layout.Clashes,Layout.Lists,layout,route]
    decide +kernel
  have hcons : layout.Consecutive s(ascii "A",ascii "B") :=
    ⟨_,List.mem_singleton_self _,route,List.mem_singleton_self _,ascii "A",ascii "B",⟨0,rfl,rfl⟩,rfl⟩
  have htime := (hdescribes hclashes).1.getTravelTime_consecutive _ _ hcons
  exact UInt32.toNat_inj.mp (htime.trans (by decide +kernel))

end TransportNetwork
end QuietRoute
