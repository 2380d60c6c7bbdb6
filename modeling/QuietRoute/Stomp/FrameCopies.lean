import QuietRoute.Stomp.FrameAcceptance

/-! Copies of frames. A copy gets the text and parses it again, into an object that may hold the
parts of an earlier text. When the text is no frame these stay, and the views among them point to
where the earlier text was: they denote whatever memory holds there. -/
namespace QuietRoute
namespace StompFrame

/-- What a copy finds in memory: behind the views into a text that was replaced, and in the variable
`length` of `ValidateFrame`. -/
structure Memory where
  value : StompHeader → ℕ → UInt8
  body : ℕ → UInt8
  length : ℕ

/-- The bytes a view denotes that is as long as `view` was. -/
def reread (cells : ℕ → UInt8) (view : Bytes) : Bytes := (List.range view.length).map cells

/-- `plain_ = plain`. -/
def replacePlain (memory : Memory) (frame : StompFrame) (plain : Bytes) : StompFrame where
  plain := plain
  command := frame.command
  headers := frame.headers.mapWithKey fun header value => reread (memory.value header) value
  body := reread memory.body frame.body

/-- `ParseAndValidateFrame(plain_)` for what it does to the object; `none` is an exception. -/
def reparse (memory : Memory) (frame : StompFrame) : Option StompFrame :=
  (frame.parseAndValidateFrame memory.length).map Prod.snd

/-- The copy constructor. -/
def copy (memory : Memory) (other : StompFrame) : Option StompFrame :=
  {default with plain := other.plain}.reparse memory

/-- `operator=` of the object `frame` at the address `this` from the one at `source`. -/
def assign (memory : Memory) (this source : ℕ) (frame other : StompFrame) : Option StompFrame :=
  if this ≠ source then (frame.replacePlain memory other.plain).reparse memory
  else some frame

structure Agrees (frame other : StompFrame) : Prop where
  getCommand : frame.command = other.command
  hasHeader : ∀ header, frame.hasHeader header = other.hasHeader header
  getHeaderValue : ∀ header, frame.getHeaderValue header = other.getHeaderValue header
  getBody : frame.body = other.body
  toString : frame.plain = other.plain

theorem Agrees.refl (frame : StompFrame) : frame.Agrees frame :=
  ⟨rfl,fun _ => rfl,fun _ => rfl,rfl,rfl⟩

end StompFrame

open StompFrame

abbrev Frames := ℕ → Option StompFrame

def IsFrame (text : Bytes) : Prop :=
  ∃ command hs body, HasParts text command hs body ∧ Delimits (addHeaders .empty hs) body

namespace Frames

inductive Makes (frames : Frames) : ℕ → StompFrame → Prop
  | default (x : ℕ) : Makes frames x .default
  | ofString {x uninitialised : ℕ} {text : Bytes} {ec : StompError} {frame : StompFrame}
      (h : ofString uninitialised text = some (ec,frame)) : Makes frames x frame
  | ofComponents {x uninitialised : ℕ} {command : StompCommand} {headers : Headers} {body : Bytes}
      {ec : StompError} {frame : StompFrame}
      (h : ofComponents uninitialised command headers body = some (ec,frame)) :
      Makes frames x frame
  | copy {x y : ℕ} {memory : Memory} {other frame : StompFrame} (hother : frames y = some other)
      (h : other.copy memory = some frame) : Makes frames x frame
  | assign {x y : ℕ} {memory : Memory} {frame other result : StompFrame}
      (hframe : frames x = some frame) (hother : frames y = some other)
      (h : frame.assign memory x y other = some result) : Makes frames x result
  /-- What is behind views into an earlier text changes at any time. -/
  | reread {x : ℕ} {memory : Memory} {frame : StompFrame} (hframe : frames x = some frame)
      (h : ¬IsFrame frame.plain) : Makes frames x (frame.replacePlain memory frame.plain)

inductive Reachable : Frames → Prop
  | none : Reachable fun _ => none
  | make {frames : Frames} {x : ℕ} {frame : StompFrame} (h : Reachable frames)
      (hmake : frames.Makes x frame) : Reachable (Function.update frames x (some frame))

end Frames

variable {memory : Memory} {frame frame' other : StompFrame} {command : StompCommand}
  {hs : List (StompHeader × Bytes)} {body : Bytes}

/-! What parsing again does. -/

theorem reparse_of_parts (hparts : HasParts frame.plain command hs body)
    (hbody : Delimits (addHeaders .empty hs) body) :
    frame.reparse memory = some (frameOf frame.plain command hs body) := by
  simp only [reparse,parseAndValidateFrame,parseFrame_parts hparts hbody]
  rfl

theorem reparse_of_not_isFrame (hframe : ¬IsFrame frame.plain)
    (hreturns : ¬EndsAfterColon frame.plain) : frame.reparse memory = some frame := by
  obtain ⟨command,hs,body,hparts,hbody,-⟩ | ⟨hcolon,-⟩ | ⟨ec,hparse⟩ := parseFrame_cases frame.plain
  · exact absurd ⟨command,hs,body,hparts,hbody⟩ hframe
  · exact absurd hcolon hreturns
  · simp only [reparse,parseAndValidateFrame,hparse]
    rfl

theorem reparse_of_endsAfterColon (hcolon : EndsAfterColon frame.plain) :
    frame.reparse memory = none := by
  simp only [reparse,parseAndValidateFrame,parseFrame_throws_iff.mpr hcolon]
  rfl

theorem reparse_cases (h : frame.reparse memory = some frame') :
    (∃ command hs body, HasParts frame.plain command hs body ∧
      Delimits (addHeaders .empty hs) body ∧ frame' = frameOf frame.plain command hs body) ∨
    ¬IsFrame frame.plain ∧ ¬EndsAfterColon frame.plain ∧ frame' = frame := by
  by_cases hframe : IsFrame frame.plain
  · obtain ⟨command,hs,body,hparts,hbody⟩ := hframe
    rw [reparse_of_parts hparts hbody] at h
    exact Or.inl ⟨command,hs,body,hparts,hbody,(Option.some.inj h).symm⟩
  · by_cases hcolon : EndsAfterColon frame.plain
    · rw [reparse_of_endsAfterColon hcolon] at h
      cases h
    · rw [reparse_of_not_isFrame hframe hcolon] at h
      exact Or.inr ⟨hframe,hcolon,(Option.some.inj h).symm⟩

/-! What holds of every object. -/

def StompFrame.ValuesPresent (frame : StompFrame) : Prop :=
  ∀ header value, frame.headers.find header = some value → value ≠ []

/-- The text does not make the parser throw, and the parts are those of the text if it is a
frame. -/
structure StompFrame.Settled (frame : StompFrame) : Prop where
  returns : ¬EndsAfterColon frame.plain
  parts : ∀ command hs body, HasParts frame.plain command hs body →
    Delimits (addHeaders .empty hs) body → frame = frameOf frame.plain command hs body
  present : frame.ValuesPresent

theorem valuesPresent_default (plain : Bytes) :
    {StompFrame.default with plain := plain}.ValuesPresent := by
  intro header value hfind
  cases hfind

theorem valuesPresent_frameOf (text : Bytes) (hvalid : ∀ h ∈ hs, ValidHeader h) :
    (frameOf text command hs body).ValuesPresent := by
  intro header value hfind
  rw [frameOf,find_addHeaders_empty,firstValue,Option.map_eq_some_iff] at hfind
  obtain ⟨h,hh,rfl⟩ := hfind
  exact (hvalid h (List.mem_of_find?_eq_some hh)).value_ne_nil

theorem reread_eq_nil_iff {cells : ℕ → UInt8} {view : Bytes} : reread cells view = [] ↔ view = [] := by
  simp [reread]

theorem StompFrame.ValuesPresent.replacePlain (h : frame.ValuesPresent) (memory : Memory)
    (plain : Bytes) : (frame.replacePlain memory plain).ValuesPresent := by
  intro header value hfind
  rw [StompFrame.replacePlain,UnorderedMap.find_mapWithKey,Option.map_eq_some_iff] at hfind
  obtain ⟨old,hold,rfl⟩ := hfind
  exact mt reread_eq_nil_iff.mp (h header old hold)

theorem settled_of_not_isFrame (hframe : ¬IsFrame frame.plain)
    (hreturns : ¬EndsAfterColon frame.plain) (h : frame.ValuesPresent) : frame.Settled where
  returns := hreturns
  parts command hs body hparts hbody := absurd ⟨command,hs,body,hparts,hbody⟩ hframe
  present := h

theorem settled_of_reparse (hpresent : frame.ValuesPresent)
    (h : frame.reparse memory = some frame') : frame'.Settled := by
  obtain ⟨command,hs,body,hparts,hbody,rfl⟩ | ⟨hframe,hreturns,rfl⟩ := reparse_cases h
  · refine ⟨?_,?_,valuesPresent_frameOf _ hparts.headers_valid⟩
    · rw [← parseFrame_throws_iff,frameOf,parseFrame_parts hparts hbody]
      simp
    · intro command' hs' body' hparts' _
      obtain ⟨rfl,rfl,rfl⟩ := hparts.unique hparts'
      rfl
  · exact settled_of_not_isFrame hframe hreturns hpresent

theorem not_isFrame_nil : ¬IsFrame [] := by
  rintro ⟨command,hs,body,hparts,-⟩
  obtain ⟨n,htext⟩ := hparts.text_eq
  simp [frameHead] at htext

theorem settled_default : StompFrame.default.Settled := by
  refine settled_of_not_isFrame not_isFrame_nil ?_ (valuesPresent_default [])
  rintro ⟨command,hs,header,-,-,-,htext⟩
  simp [StompFrame.default,frameHead] at htext

theorem settled_ofString {uninitialised : ℕ} {text : Bytes} {ec : StompError}
    (h : ofString uninitialised text = some (ec,frame)) : frame.Settled := by
  have hreparse : {StompFrame.default with plain := text}.reparse
      ⟨fun _ _ => 0,fun _ => 0,uninitialised⟩ = some frame := congrArg (Option.map Prod.snd) h
  exact settled_of_reparse (valuesPresent_default text) hreparse

/-- Copy assignment settles every object. -/
theorem settled_assign {x y : ℕ} {result : StompFrame} (hframe : frame.Settled)
    (h : frame.assign memory x y other = some result) : result.Settled := by
  rw [StompFrame.assign] at h
  split_ifs at h with hxy
  · exact settled_of_reparse (hframe.present.replacePlain memory other.plain) h
  · rwa [← Option.some.inj h]

theorem Frames.Makes.settled {frames : Frames} (h : ∀ x frame, frames x = some frame → frame.Settled)
    {x : ℕ} (hmake : frames.Makes x frame) : frame.Settled := by
  cases hmake with
  | default => exact settled_default
  | ofString hstring => exact settled_ofString hstring
  | ofComponents hcomponents => exact settled_ofString hcomponents
  | copy hother hcopy => exact settled_of_reparse (valuesPresent_default _) hcopy
  | assign hframe hother hassign => exact settled_assign (h _ _ hframe) hassign
  | reread hframe htext =>
    have hold := h _ _ hframe
    exact settled_of_not_isFrame htext hold.returns (hold.present.replacePlain _ _)

theorem Frames.Reachable.settled {frames : Frames} (h : frames.Reachable) :
    ∀ x frame, frames x = some frame → frame.Settled := by
  induction h with
  | none => simp
  | make h hmake ih =>
    intro x frame hx
    rw [Function.update_apply] at hx
    split_ifs at hx with heq
    · rw [← Option.some.inj hx]
      exact hmake.settled ih
    · exact ih x frame hx

/-! When both sides of an assignment agree afterwards. -/

structure StompFrame.Bare (frame : StompFrame) : Prop where
  headers : ∀ header, frame.hasHeader header = false
  body : frame.body = []

theorem reread_const (c : UInt8) (view : Bytes) :
    reread (fun _ => c) view = List.replicate view.length c := by simp [reread]

theorem eq_nil_of_reread {view bytes : Bytes} (h : ∀ c, reread (fun _ => c) view = bytes) :
    view = [] := by
  have hconst := (h 0).trans (h 1).symm
  rw [reread_const,reread_const,List.replicate_inj] at hconst
  exact List.length_eq_zero_iff.mp (hconst.2.resolve_right (by decide))

theorem hasHeader_replacePlain (memory : Memory) (frame : StompFrame) (plain : Bytes)
    (header : StompHeader) :
    (frame.replacePlain memory plain).hasHeader header = frame.hasHeader header := by
  simp [hasHeader,StompFrame.replacePlain,UnorderedMap.find_mapWithKey]

theorem getHeaderValue_replacePlain (memory : Memory) (frame : StompFrame) (plain : Bytes)
    (header : StompHeader) : (frame.replacePlain memory plain).getHeaderValue header =
      reread (memory.value header) (frame.getHeaderValue header) := by
  rw [getHeaderValue,StompFrame.replacePlain,UnorderedMap.find_mapWithKey,getHeaderValue]
  cases frame.headers.find header <;> rfl

theorem getHeaderValue_eq_nil {header : StompHeader} (h : frame.hasHeader header = false) :
    frame.getHeaderValue header = [] := by
  rw [hasHeader,Option.isSome_eq_false_iff,Option.isNone_iff_eq_none] at h
  rw [getHeaderValue,h]
  rfl

theorem StompFrame.Settled.hasHeader_of_getHeaderValue (h : frame.Settled) {header : StompHeader}
    (hvalue : frame.getHeaderValue header = []) : frame.hasHeader header = false := by
  rw [getHeaderValue] at hvalue
  cases hfind : frame.headers.find header with
  | none => simp [hasHeader,hfind]
  | some value =>
    rw [hfind] at hvalue
    exact absurd hvalue (h.present header value hfind)

/-- Parts that stay agree for whatever is behind their views only if there are none. -/
theorem replacePlain_agrees_iff (h : frame.Settled) :
    (∀ memory, (frame.replacePlain memory other.plain).Agrees other) ↔
      frame.command = other.command ∧ frame.Bare ∧ other.Bare := by
  constructor
  · intro hagree
    have hmemory := fun c : UInt8 => hagree ⟨fun _ _ => c,fun _ => c,0⟩
    have hbody : frame.body = [] := eq_nil_of_reread fun c => (hmemory c).getBody
    have hheaders : ∀ header, frame.hasHeader header = false := by
      intro header
      apply h.hasHeader_of_getHeaderValue
      apply eq_nil_of_reread
      intro c
      have hvalue := (hmemory c).getHeaderValue header
      rwa [getHeaderValue_replacePlain] at hvalue
    refine ⟨(hmemory 0).getCommand,⟨hheaders,hbody⟩,fun header => ?_,?_⟩
    · rw [← (hmemory 0).hasHeader,hasHeader_replacePlain,hheaders]
    · rw [← (hmemory 0).getBody]
      exact reread_eq_nil_iff.mpr hbody
  · rintro ⟨hcommand,hframe,hother⟩ memory
    refine ⟨hcommand,fun header => ?_,fun header => ?_,?_,rfl⟩
    · rw [hasHeader_replacePlain,hframe.headers,hother.headers]
    · rw [getHeaderValue_replacePlain,getHeaderValue_eq_nil (hframe.headers header),
        getHeaderValue_eq_nil (hother.headers header)]
      rfl
    · rw [hother.body]
      exact reread_eq_nil_iff.mpr hframe.body

/-- Copy assignment gives an equal frame exactly if it is from the object itself, or from one whose
text is a frame, or if neither object has parts apart from one command. -/
theorem assign_agrees_iff {frames : Frames} (h : frames.Reachable) {x y : ℕ}
    (hframe : frames x = some frame) (hother : frames y = some other) :
    (∀ memory, ∃ result, frame.assign memory x y other = some result ∧ result.Agrees other) ↔
      x = y ∨ IsFrame other.plain ∨
        frame.command = other.command ∧ frame.Bare ∧ other.Bare := by
  have hsettled := h.settled y other hother
  by_cases hxy : x = y
  · have heq : frame = other := by
      rw [hxy,hother] at hframe
      exact (Option.some.inj hframe).symm
    simp [StompFrame.assign,hxy,heq,Agrees.refl]
  · by_cases htext : IsFrame other.plain
    · simp only [hxy,htext,true_or,or_true,iff_true]
      obtain ⟨command,hs,body,hparts,hbody⟩ := htext
      intro memory
      refine ⟨other,?_,Agrees.refl other⟩
      rw [StompFrame.assign,if_pos hxy,hsettled.parts command hs body hparts hbody]
      exact @reparse_of_parts memory (frame.replacePlain memory other.plain) _ _ _ hparts hbody
    · rw [← replacePlain_agrees_iff (h.settled x frame hframe)]
      have hassign : ∀ memory, frame.assign memory x y other =
          some (frame.replacePlain memory other.plain) := by
        intro memory
        rw [StompFrame.assign,if_pos hxy]
        exact reparse_of_not_isFrame htext hsettled.returns
      simp [hassign,hxy,htext]

def bareError : StompFrame := frameOf (ascii "ERROR\n\n\x00") .kError [] []

theorem hasParts_bareError : HasParts bareError.plain .kError [] [] :=
  ⟨by decide,by simp,0,by decide +kernel⟩

theorem delimits_nil : Delimits (addHeaders .empty []) [] := List.not_mem_nil

def twoFrames : Frames :=
  Function.update (Function.update (fun _ => none) 0 (some .default)) 1 (some bareError)

theorem reachable_twoFrames : twoFrames.Reachable :=
  .make (.make .none (.default 0)) (@Frames.Makes.ofString _ 1 0 _ _ _
    (ofString_of_parseFrame (parseFrame_parts hasParts_bareError delimits_nil)))

theorem isFrame_bareError : IsFrame bareError.plain :=
  ⟨_,_,_,hasParts_bareError,delimits_nil⟩

theorem assign_agrees_bareError : IsFrame bareError.plain ∧ ∀ memory, ∃ result,
    StompFrame.default.assign memory 0 1 bareError = some result ∧ result.Agrees bareError :=
  ⟨isFrame_bareError,
    (assign_agrees_iff reachable_twoFrames rfl rfl).mpr (Or.inr (Or.inl isFrame_bareError))⟩

/-- A frame keeps its command when a default-constructed one is assigned to it. -/
theorem assign_default_disagrees : ¬∀ (frames : Frames) (x y : ℕ) (frame other : StompFrame)
    (memory : Memory), frames.Reachable → frames x = some frame → frames y = some other →
      ∃ result, frame.assign memory x y other = some result ∧ result.Agrees other := by
  intro hclaim
  let memory : Memory := ⟨fun _ _ => 0,fun _ => 0,0⟩
  obtain ⟨result,hassign,hagrees⟩ := hclaim twoFrames 1 0 bareError .default memory
    reachable_twoFrames rfl rfl
  have hreparse : (bareError.replacePlain memory []).reparse memory = some result := hassign
  have hkept := @reparse_of_not_isFrame memory (bareError.replacePlain memory []) not_isFrame_nil
    settled_default.returns
  have hcommand := hagrees.getCommand
  rw [← Option.some.inj (hkept.symm.trans hreparse)] at hcommand
  cases hcommand

end QuietRoute
