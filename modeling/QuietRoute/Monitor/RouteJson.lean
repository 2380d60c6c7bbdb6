import QuietRoute.Monitor.NetworkMonitor
import QuietRoute.Network.ItineraryIds
import QuietRoute.Network.LayoutFile

/-! Itineraries as JSON values: reading back what was written, also where the order of the members has
changed. -/
namespace QuietRoute

/-- `get<unsigned int>` where it is defined. -/
def Json.unsignedAt (value : Json) (key : Bytes) : Option UInt32 := do
  (← (← value.field key).getUnsigned)

/-- `from_json`. -/
def TravelStep.fromJson (src : Json) : Option TravelStep := do
  let startStationId ← src.stringAt (ascii "start_station_id")
  let endStationId ← src.stringAt (ascii "end_station_id")
  let lineId ← src.stringAt (ascii "line_id")
  let routeId ← src.stringAt (ascii "route_id")
  let travelTime ← src.unsignedAt (ascii "travel_time")
  return ⟨startStationId,endStationId,lineId,routeId,travelTime⟩

/-- `get<std::vector<TravelRoute::Step>>`. -/
def Json.getSteps : Json → Option (List TravelStep)
  | .array values => values.mapM TravelStep.fromJson
  | _ => none

/-- `from_json`. -/
def TravelRoute.fromJson (src : Json) : Option TravelRoute := do
  let startStationId ← src.stringAt (ascii "start_station_id")
  let endStationId ← src.stringAt (ascii "end_station_id")
  let totalTravelTime ← src.unsignedAt (ascii "total_travel_time")
  let steps ← (← src.field (ascii "steps")).getSteps
  return ⟨startStationId,endStationId,totalTravelTime,steps⟩

def ValidUtf8 (text : Bytes) : Prop := ∃ chars : List Char, chars.flatMap String.utf8EncodeChar = text

/-- The library writes every itinerary of valid texts, and reads the same value back. -/
def JsonLibrary.KeepsRoutes (json : JsonLibrary) : Prop :=
  ∀ route : TravelRoute, route.Names ValidUtf8 → ∃ text value,
    json.dump route.toJson = some text ∧ json.parse text = some value ∧ route.toJson.Same value

theorem Json.Same.unsignedAt {value value' : Json} {key : Bytes} {t : UInt32} (h : value.Same value')
    (ht : value.unsignedAt key = some t) : value'.unsignedAt key = some t := by
  simp only [Json.unsignedAt,Option.bind_eq_bind,Option.bind_eq_some_iff] at ht ⊢
  obtain ⟨member,hmember,number,hnumber,ht⟩ := ht
  obtain ⟨member',hmember',hsame⟩ := h.field hmember
  cases hsame with
  | refl => exact ⟨member,hmember',number,hnumber,ht⟩
  | array => cases hnumber
  | object => cases hnumber

theorem getUnsigned_toNat (t : UInt32) : (Json.integer t.toNat).getUnsigned = some (some t) := by
  have hof : UInt32.ofInt (t.toNat : ℤ) = t := by
    apply UInt32.toNat_inj.mp
    have hmod := TransportNetwork.toNat_ofInt (t.toNat : ℤ)
    have hlt := t.toNat_lt
    omega
  rw [Json.getUnsigned,hof]

theorem TravelStep.fromJson_same {step : TravelStep} {value : Json}
    (h : step.toJson.Same value) : fromJson value = some step := by
  have hstart := @Json.Same.stringAt _ _ (ascii "start_station_id") step.startStationId h rfl
  have hend := @Json.Same.stringAt _ _ (ascii "end_station_id") step.endStationId h rfl
  have hline := @Json.Same.stringAt _ _ (ascii "line_id") step.lineId h rfl
  have hroute := @Json.Same.stringAt _ _ (ascii "route_id") step.routeId h rfl
  have htime := @Json.Same.unsignedAt _ _ (ascii "travel_time") step.travelTime h
    (congrArg (Option.bind · id) (getUnsigned_toNat step.travelTime))
  simp only [fromJson,hstart,hend,hline,hroute,htime,Option.bind_eq_bind,Option.bind_some,
    Option.pure_def]

theorem mapM_fromJson_same {steps : List TravelStep} {values : List Json}
    (h : List.Forall₂ Json.Same (steps.map TravelStep.toJson) values) :
    values.mapM TravelStep.fromJson = some steps := by
  induction steps generalizing values with
  | nil =>
    cases h
    rfl
  | cons step steps ih =>
    cases h with
    | cons hfirst hrest =>
      rw [List.mapM_cons,TravelStep.fromJson_same hfirst,ih hrest]
      rfl

theorem TravelRoute.fromJson_same {route : TravelRoute} {value : Json}
    (h : route.toJson.Same value) : fromJson value = some route := by
  have hstart := @Json.Same.stringAt _ _ (ascii "start_station_id") route.startStationId h rfl
  have hend := @Json.Same.stringAt _ _ (ascii "end_station_id") route.endStationId h rfl
  have htime := @Json.Same.unsignedAt _ _ (ascii "total_travel_time") route.totalTravelTime h
    (congrArg (Option.bind · id) (getUnsigned_toNat route.totalTravelTime))
  obtain ⟨member,hmember,hsame⟩ := @Json.Same.field _ _ (ascii "steps")
    (.array (route.steps.map TravelStep.toJson)) h rfl
  have hsteps : member.getSteps = some route.steps := by
    cases hsame with
    | refl => exact mapM_fromJson_same (List.forall₂_refl _)
    | array hvalues => exact mapM_fromJson_same hvalues
  simp only [fromJson,hstart,hend,htime,hmember,hsteps,Option.bind_eq_bind,Option.bind_some,
    Option.pure_def]

end QuietRoute
