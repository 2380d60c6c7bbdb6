import QuietRoute.Protocol.Machine

/-! Two machines that send each other messages over channels which keep the order but may lose messages.
A run of both is a run of each of them, and what arrives at one end has left the other. -/
namespace Reporting

variable {σ τ α α' β γ κ : Type}

/-- The ends and what is on its way between them. -/
structure Link (σ τ β γ : Type) where
  left : σ
  right : τ
  rightward : List β
  leftward : List γ

/-- Something happens at an end, or the first message on its way arrives there or is lost. An arrival
may carry something that the sender does not decide. -/
inductive LinkEvent (α α' κ : Type)
  | left (a : α)
  | right (a : α')
  | arriveLeft (k : κ)
  | arriveRight (k : κ)
  | loseLeft
  | loseRight

def arrivals (inputs : List (α ⊕ κ × β)) : List (κ × β) := inputs.filterMap Sum.getRight?

def arrivedTexts (inputs : List (α ⊕ κ × β)) : List β := (arrivals inputs).map Prod.snd

theorem arrivedTexts_append (inputs inputs' : List (α ⊕ κ × β)) :
    arrivedTexts (inputs ++ inputs') = arrivedTexts inputs ++ arrivedTexts inputs' := by
  simp [arrivedTexts,arrivals]

@[simp] theorem arrivedTexts_own (a : α) : arrivedTexts [(.inl a : α ⊕ κ × β)] = [] := rfl

@[simp] theorem arrivedTexts_arrival (k : κ) (message : β) :
    arrivedTexts [(.inr (k,message) : α ⊕ κ × β)] = [message] := rfl

namespace Machine

/-- The reports of the link are the inputs of its two ends, in the order in which they happen. -/
def link (left : Machine σ (α ⊕ κ × γ) β) (right : Machine τ (α' ⊕ κ × β) γ) :
    Machine (Link σ τ β γ) (LinkEvent α α' κ) ((α ⊕ κ × γ) ⊕ (α' ⊕ κ × β)) where
  step l
    | .left a => do
      let (s,sent) ← left.step l.left (.inl a)
      return ({l with left := s, rightward := l.rightward ++ sent},[.inl (.inl a)])
    | .right a => do
      let (t,sent) ← right.step l.right (.inl a)
      return ({l with right := t, leftward := l.leftward ++ sent},[.inr (.inl a)])
    | .arriveLeft k =>
      match l.leftward with
      | [] => none
      | message::rest => do
        let (s,sent) ← left.step l.left (.inr (k,message))
        return ({l with left := s, leftward := rest, rightward := l.rightward ++ sent},
          [.inl (.inr (k,message))])
    | .arriveRight k =>
      match l.rightward with
      | [] => none
      | message::rest => do
        let (t,sent) ← right.step l.right (.inr (k,message))
        return ({l with right := t, rightward := rest, leftward := l.leftward ++ sent},
          [.inr (.inr (k,message))])
    | .loseLeft =>
      match l.leftward with
      | [] => none
      | _::rest => some ({l with leftward := rest},[])
    | .loseRight =>
      match l.rightward with
      | [] => none
      | _::rest => some ({l with rightward := rest},[])

end Machine

/-- A channel after some messages: those that have arrived and those on their way were sent, in this
order, and they are all if none was lost. -/
structure Carries (sent arrived underway : List β) (lossless : Prop) : Prop where
  sublist : (arrived ++ underway).Sublist sent
  eq : lossless → arrived ++ underway = sent

namespace Carries

variable {sent arrived underway : List β} {lossless lossless' : Prop} {message : β}

theorem nil : Carries ([] : List β) [] [] lossless := ⟨List.Sublist.refl _,fun _ => rfl⟩

theorem send (h : Carries sent arrived underway lossless) (more : List β) :
    Carries (sent ++ more) arrived (underway ++ more) lossless := by
  constructor
  · rw [← List.append_assoc]
    exact h.sublist.append (List.Sublist.refl _)
  · intro hlossless
    rw [← List.append_assoc,h.eq hlossless]

theorem arrive (h : Carries sent arrived (message::underway) lossless) :
    Carries sent (arrived ++ [message]) underway lossless := by
  constructor
  · simpa using h.sublist
  · intro hlossless
    simpa using h.eq hlossless

theorem lose (h : Carries sent arrived (message::underway) lossless) (hlossy : ¬lossless') :
    Carries sent arrived underway lossless' where
  sublist := (List.Sublist.append (List.Sublist.refl _) (List.sublist_cons_self _ _)).trans h.sublist
  eq hlossless := absurd hlossless hlossy

theorem imp (h : Carries sent arrived underway lossless) (himp : lossless' → lossless) :
    Carries sent arrived underway lossless' := ⟨h.sublist,fun hlossless => h.eq (himp hlossless)⟩

theorem isPrefix (h : Carries sent arrived underway lossless) (hlossless : lossless) :
    arrived <+: sent := ⟨underway,h.eq hlossless⟩

theorem arrived_sublist (h : Carries sent arrived underway lossless) : arrived.Sublist sent :=
  (List.sublist_append_left _ _).trans h.sublist

end Carries

/-- What is served of the things wanted, by one who may leave on the way and does not come back. -/
structure WhileThere (there there' : Prop) (served wanted : List β) : Prop where
  isPrefix : served <+: wanted
  all : there' → served = wanted
  none : ¬there → served = [] ∧ ¬there'

namespace WhileThere

variable {there there' there'' : Prop} {served served' wanted wanted' : List β}

theorem nil (h : there' → there) : WhileThere there there' ([] : List β) [] :=
  ⟨List.prefix_rfl,fun _ => rfl,fun hnot => ⟨rfl,fun hthere => hnot (h hthere)⟩⟩

theorem one (hthere : there) (b : β) : WhileThere there there' [b] [b] :=
  ⟨List.prefix_rfl,fun _ => rfl,fun hnot => absurd hthere hnot⟩

theorem missed (hnot : ¬there') (wanted : List β) : WhileThere there there' [] wanted :=
  ⟨List.nil_prefix,fun hthere => absurd hthere hnot,fun _ => ⟨rfl,hnot⟩⟩

theorem trans (h : WhileThere there there' served wanted)
    (h' : WhileThere there' there'' served' wanted') :
    WhileThere there there'' (served ++ served') (wanted ++ wanted') := by
  refine ⟨?_,fun hthere => ?_,fun hnot => ?_⟩
  · by_cases hthere : there'
    · rw [h.all hthere]
      exact (List.prefix_append_right_inj _).mpr h'.isPrefix
    · rw [(h'.none hthere).1,List.append_nil]
      exact h.isPrefix.trans (List.prefix_append _ _)
  · have hmid : there' := by
      by_contra hnot
      exact (h'.none hnot).2 hthere
    rw [h.all hmid,h'.all hthere]
  · obtain ⟨hserved,hleft⟩ := h.none hnot
    obtain ⟨hserved',hleft'⟩ := h'.none hleft
    exact ⟨by rw [hserved,hserved',List.append_nil],hleft'⟩

end WhileThere

namespace Machine

variable {left : Machine σ (α ⊕ κ × γ) β} {right : Machine τ (α' ⊕ κ × β) γ} {s : σ} {t : τ}
  {events : List (LinkEvent α α' κ)} {l : Link σ τ β γ} {log : List ((α ⊕ κ × γ) ⊕ (α' ⊕ κ × β))}

/-- What a run of the link is for each of the ends and for the channels. -/
structure Linked (left : Machine σ (α ⊕ κ × γ) β) (right : Machine τ (α' ⊕ κ × β) γ) (s : σ) (t : τ)
    (events : List (LinkEvent α α' κ)) (l : Link σ τ β γ) (log : List ((α ⊕ κ × γ) ⊕ (α' ⊕ κ × β)))
    (sentRight : List β) (sentLeft : List γ) : Prop where
  left_run : left.run s (log.filterMap Sum.getLeft?) = some (l.left,sentRight)
  right_run : right.run t (log.filterMap Sum.getRight?) = some (l.right,sentLeft)
  rightward : Carries sentRight (arrivedTexts (log.filterMap Sum.getRight?)) l.rightward
    (.loseRight ∉ events)
  leftward : Carries sentLeft (arrivedTexts (log.filterMap Sum.getLeft?)) l.leftward
    (.loseLeft ∉ events)

variable {sentRight : List β} {sentLeft : List γ} {event : LinkEvent α α' κ}

theorem Linked.stepLeft (h : Linked left right s t events l log sentRight sentLeft)
    {input : α ⊕ κ × γ} {s' : σ} {sent : List β} (hend : left.step l.left input = some (s',sent))
    {underway : List γ} (hunderway : Carries sentLeft
      (arrivedTexts (log.filterMap Sum.getLeft?) ++ arrivedTexts [input]) underway (.loseLeft ∉ events)) :
    Linked left right s t (events ++ [event])
      {l with left := s', rightward := l.rightward ++ sent, leftward := underway}
      (log ++ [.inl input]) (sentRight ++ sent) sentLeft where
  left_run := by
    rw [List.filterMap_append]
    exact run_append_eq_some.mpr
      ⟨l.left,sentRight,sent,h.left_run,run_singleton_eq_some.mpr hend,rfl⟩
  right_run := by simpa [List.filterMap_cons] using h.right_run
  rightward := by
    rw [List.filterMap_append,List.filterMap_cons_none rfl,List.filterMap_nil,List.append_nil]
    exact (h.rightward.send sent).imp fun hlost hmem => hlost (List.mem_append_left _ hmem)
  leftward := by
    rw [List.filterMap_append,arrivedTexts_append]
    exact hunderway.imp fun hlost hmem => hlost (List.mem_append_left _ hmem)

theorem Linked.stepRight (h : Linked left right s t events l log sentRight sentLeft)
    {input : α' ⊕ κ × β} {t' : τ} {sent : List γ} (hend : right.step l.right input = some (t',sent))
    {underway : List β} (hunderway : Carries sentRight
      (arrivedTexts (log.filterMap Sum.getRight?) ++ arrivedTexts [input]) underway
        (.loseRight ∉ events)) :
    Linked left right s t (events ++ [event])
      {l with right := t', leftward := l.leftward ++ sent, rightward := underway}
      (log ++ [.inr input]) sentRight (sentLeft ++ sent) where
  left_run := by simpa [List.filterMap_cons] using h.left_run
  right_run := by
    rw [List.filterMap_append]
    exact run_append_eq_some.mpr
      ⟨l.right,sentLeft,sent,h.right_run,run_singleton_eq_some.mpr hend,rfl⟩
  rightward := by
    rw [List.filterMap_append,arrivedTexts_append]
    exact hunderway.imp fun hlost hmem => hlost (List.mem_append_left _ hmem)
  leftward := by
    rw [List.filterMap_append,List.filterMap_cons_none rfl,List.filterMap_nil,List.append_nil]
    exact (h.leftward.send sent).imp fun hlost hmem => hlost (List.mem_append_left _ hmem)

theorem Linked.step {l' : Link σ τ β γ} {now : List ((α ⊕ κ × γ) ⊕ (α' ⊕ κ × β))}
    (h : Linked left right s t events l log sentRight sentLeft)
    (hstep : (link left right).step l event = some (l',now)) : ∃ sentRight' sentLeft',
      Linked left right s t (events ++ [event]) l' (log ++ now) sentRight' sentLeft' := by
  cases event with
  | left a =>
    simp only [link,bind,Option.bind_eq_some_iff,pure,Option.some.injEq,Prod.mk.injEq,
      Prod.exists] at hstep
    obtain ⟨s',sent,hend,rfl,rfl⟩ := hstep
    exact ⟨_,_,h.stepLeft hend (by simpa using h.leftward)⟩
  | right a =>
    simp only [link,bind,Option.bind_eq_some_iff,pure,Option.some.injEq,Prod.mk.injEq,
      Prod.exists] at hstep
    obtain ⟨t',sent,hend,rfl,rfl⟩ := hstep
    exact ⟨_,_,h.stepRight hend (by simpa using h.rightward)⟩
  | arriveLeft k =>
    cases hleftward : l.leftward with
    | nil => simp [link,hleftward] at hstep
    | cons message rest =>
      simp only [link,hleftward,bind,Option.bind_eq_some_iff,pure,Option.some.injEq,Prod.mk.injEq,
        Prod.exists] at hstep
      obtain ⟨s',sent,hend,rfl,rfl⟩ := hstep
      have hcarries := h.leftward
      rw [hleftward] at hcarries
      exact ⟨_,_,h.stepLeft hend hcarries.arrive⟩
  | arriveRight k =>
    cases hrightward : l.rightward with
    | nil => simp [link,hrightward] at hstep
    | cons message rest =>
      simp only [link,hrightward,bind,Option.bind_eq_some_iff,pure,Option.some.injEq,Prod.mk.injEq,
        Prod.exists] at hstep
      obtain ⟨t',sent,hend,rfl,rfl⟩ := hstep
      have hcarries := h.rightward
      rw [hrightward] at hcarries
      exact ⟨_,_,h.stepRight hend hcarries.arrive⟩
  | loseLeft =>
    cases hleftward : l.leftward with
    | nil => simp [link,hleftward] at hstep
    | cons message rest =>
      simp only [link,hleftward,Option.some.injEq,Prod.mk.injEq] at hstep
      obtain ⟨rfl,rfl⟩ := hstep
      have hcarries := h.leftward
      rw [hleftward] at hcarries
      rw [List.append_nil]
      exact ⟨_,_,h.left_run,h.right_run,
        h.rightward.imp fun hlost hmem => hlost (List.mem_append_left _ hmem),
        hcarries.lose fun hlost => hlost (List.mem_append_right _ List.mem_cons_self)⟩
  | loseRight =>
    cases hrightward : l.rightward with
    | nil => simp [link,hrightward] at hstep
    | cons message rest =>
      simp only [link,hrightward,Option.some.injEq,Prod.mk.injEq] at hstep
      obtain ⟨rfl,rfl⟩ := hstep
      have hcarries := h.rightward
      rw [hrightward] at hcarries
      rw [List.append_nil]
      exact ⟨_,_,h.left_run,h.right_run,
        hcarries.lose fun hlost => hlost (List.mem_append_right _ List.mem_cons_self),
        h.leftward.imp fun hlost hmem => hlost (List.mem_append_left _ hmem)⟩

theorem link_step_left {l' : Link σ τ β γ} {now : List ((α ⊕ κ × γ) ⊕ (α' ⊕ κ × β))}
    (hstep : (link left right).step l event = some (l',now)) :
    (∃ input sent, now = [.inl input] ∧ left.step l.left input = some (l'.left,sent)) ∨
      now.filterMap Sum.getLeft? = [] ∧ l'.left = l.left := by
  cases event with
  | left a =>
    simp only [link,bind,Option.bind_eq_some_iff,pure,Option.some.injEq,Prod.mk.injEq,
      Prod.exists] at hstep
    obtain ⟨s',sent,hend,rfl,rfl⟩ := hstep
    exact Or.inl ⟨_,_,rfl,hend⟩
  | right a =>
    simp only [link,bind,Option.bind_eq_some_iff,pure,Option.some.injEq,Prod.mk.injEq,
      Prod.exists] at hstep
    obtain ⟨t',sent,-,rfl,rfl⟩ := hstep
    exact Or.inr ⟨rfl,rfl⟩
  | arriveLeft k =>
    cases hleftward : l.leftward with
    | nil => simp [link,hleftward] at hstep
    | cons message rest =>
      simp only [link,hleftward,bind,Option.bind_eq_some_iff,pure,Option.some.injEq,Prod.mk.injEq,
        Prod.exists] at hstep
      obtain ⟨s',sent,hend,rfl,rfl⟩ := hstep
      exact Or.inl ⟨_,_,rfl,hend⟩
  | arriveRight k =>
    cases hrightward : l.rightward with
    | nil => simp [link,hrightward] at hstep
    | cons message rest =>
      simp only [link,hrightward,bind,Option.bind_eq_some_iff,pure,Option.some.injEq,Prod.mk.injEq,
        Prod.exists] at hstep
      obtain ⟨t',sent,-,rfl,rfl⟩ := hstep
      exact Or.inr ⟨rfl,rfl⟩
  | loseLeft =>
    cases hleftward : l.leftward with
    | nil => simp [link,hleftward] at hstep
    | cons message rest =>
      simp only [link,hleftward,Option.some.injEq,Prod.mk.injEq] at hstep
      obtain ⟨rfl,rfl⟩ := hstep
      exact Or.inr ⟨rfl,rfl⟩
  | loseRight =>
    cases hrightward : l.rightward with
    | nil => simp [link,hrightward] at hstep
    | cons message rest =>
      simp only [link,hrightward,Option.some.injEq,Prod.mk.injEq] at hstep
      obtain ⟨rfl,rfl⟩ := hstep
      exact Or.inr ⟨rfl,rfl⟩

/-- A run of the link is a run of each end, on what arrives from the other one. -/
theorem link_run (h : (link left right).run ⟨s,t,[],[]⟩ events = some (l,log)) :
    ∃ sentRight sentLeft, Linked left right s t events l log sentRight sentLeft := by
  refine run_induction (motive := fun events l log =>
    ∃ sentRight sentLeft, Linked left right s t events l log sentRight sentLeft) ?_ ?_ h
  · exact ⟨[],[],rfl,rfl,.nil,.nil⟩
  · rintro events event l l' log now - ⟨sentRight,sentLeft,h⟩ hstep
    exact h.step hstep

end Machine
end Reporting
