import Opms.PortfolioStop.Book

/-! # Verdicts from last writes

The table keeps the last accepted write of each leg, and an answer is a
function of those: rows of strangers and the order in which different legs
wrote make no difference. The abstract book is the map of last writes.
-/

namespace Opms.PortfolioStop

open Foundation

variable {members : Finset Leg}

/-! ## The abstract verdict -/

/-- The row is neither stale nor dated ahead. -/
def Row.Fresh (staleS now : ℚ) (row : Row) : Prop := now - staleS ≤ row.ts ∧ row.ts ≤ now + 1

instance (staleS now : ℚ) (row : Row) : Decidable (row.Fresh staleS now) :=
  inferInstanceAs (Decidable (_ ∧ _))

/-- Some member's last write is fresh and has the mode. -/
def Raised (members : Finset Leg) (staleS now : ℚ) (writes : Leg → Option Row)
    (mode : LegMode) : Prop :=
  ∃ member ∈ members, ∃ row ∈ writes member, row.Fresh staleS now ∧ row.mode = mode

instance (members : Finset Leg) (staleS now : ℚ) (writes : Leg → Option Row) (mode : LegMode) :
    Decidable (Raised members staleS now writes mode) :=
  inferInstanceAs (Decidable (∃ member ∈ members, ∃ row ∈ writes member, _))

/-- Every member's last write is fresh. -/
def Complete (members : Finset Leg) (staleS now : ℚ) (writes : Leg → Option Row) : Prop :=
  ∀ member ∈ members, ∃ row ∈ writes member, row.Fresh staleS now

instance (members : Finset Leg) (staleS now : ℚ) (writes : Leg → Option Row) :
    Decidable (Complete members staleS now writes) :=
  inferInstanceAs (Decidable (∀ member ∈ members, ∃ row ∈ writes member, _))

/-- What the basket answers `leg` at `now`, from each member's last write: an
emergency anywhere, then a missing leg, then a stop anywhere decides. -/
def basketVerdict (usdcFlatTargets : FlatTargets) (members : Finset Leg) (staleS : ℚ)
    (writes : Leg → Option Row) (now : ℚ) (leg : Leg) (position : ℚ) : BasketMode × ℚ :=
  if Raised members staleS now writes .emergency then (.emergency, 0)
  else if ¬ Complete members staleS now writes then (.hold, position)
  else if ¬ Raised members staleS now writes .stop then (.quote, position)
  else (.stop, usdcFlatTargets (fun member =>
    if member ∈ members then (writes member).map fun row => (row.position, row.mid) else none) leg)

/-! ## The table refines it -/

namespace PortfolioStopBook

variable (book : PortfolioStopBook members) (table : Table) (now : ℚ)

theorem lookup_fresh (member : Leg) (hmember : member ∈ members) :
    (book.fresh table now).lookup member.name =
      (table.lookup member.name).filter fun row => row.Fresh book.staleS now := by
  have hname : member.name ∈ members.image Leg.name := Finset.mem_image_of_mem _ hmember
  rw [fresh, Registry.lookup_filter]
  congr 1
  funext row
  exact decide_eq_decide.mpr (by simp only [Row.Fresh, hname, and_true])

/-- A mode among the fresh rows is a mode some member raised. -/
theorem any_fresh_iff (mode : LegMode) :
    ((book.fresh table now).entries.any fun entry => entry.2.mode = mode) = true ↔
      Raised members book.staleS now (fun leg => table.lookup leg.name) mode := by
  simp only [List.any_eq_true, decide_eq_true_eq, Raised, Option.mem_def]
  constructor
  · rintro ⟨⟨name, row⟩, hentry, hmode⟩
    rw [Registry.mem_entries_iff, fresh, Registry.lookup_filter,
      Option.filter_eq_some_iff] at hentry
    obtain ⟨hlook, htest⟩ := hentry
    obtain ⟨hstale, hahead, hname⟩ := of_decide_eq_true htest
    obtain ⟨member, hmember, rfl⟩ := Finset.mem_image.mp hname
    exact ⟨member, hmember, row, hlook, ⟨hstale, hahead⟩, hmode⟩
  · rintro ⟨member, hmember, row, hlook, hfresh, hmode⟩
    refine ⟨(member.name, row), ?_, hmode⟩
    rw [Registry.mem_entries_iff, lookup_fresh book table now member hmember, hlook]
    simp [hfresh]

/-- Under distinct names, as many fresh rows as members means every member is fresh. -/
theorem length_fresh_iff (hnames : Set.InjOn Leg.name members) :
    (book.fresh table now).entries.length = members.card ↔
      Complete members book.staleS now fun leg => table.lookup leg.name := by
  rw [← Finset.card_image_of_injOn hnames, fresh, Registry.length_filter_eq_card_iff,
    Finset.forall_mem_image]
  · refine forall₂_congr fun member hmember => ?_
    have hfresh := lookup_fresh book table now member hmember
    rw [fresh, Registry.lookup_filter] at hfresh
    rw [hfresh, Option.isSome_iff_exists]
    simp only [Option.filter_eq_some_iff, decide_eq_true_eq, Option.mem_def]
  · intro name row htest
    exact (of_decide_eq_true htest).2.2

/-- The answer from the table is the abstract verdict on the members' rows. -/
theorem verdict_eq (usdcFlatTargets : FlatTargets) (hnames : Set.InjOn Leg.name members)
    (leg : Leg) (row : Row) :
    book.verdict usdcFlatTargets table leg row = basketVerdict usdcFlatTargets members book.staleS
      (fun leg => table.lookup leg.name) row.ts leg row.position := by
  simp only [verdict, basketVerdict, any_fresh_iff, length_fresh_iff book table row.ts hnames,
    ne_eq]
  split
  next => rfl
  next =>
    split
    next => rfl
    next hcomplete =>
      split
      next => rfl
      next =>
        congr 2
        funext member
        split
        next hmember =>
          -- every member is fresh here, so the filter keeps its row
          obtain ⟨held, hheld, hfresh⟩ := not_not.mp hcomplete member hmember
          have hheld : table.lookup member.name = some held := hheld
          rw [lookup_fresh book table row.ts member hmember, hheld]
          simp [hfresh]
        next => rfl

end PortfolioStopBook

/-! ## Runs of requests -/

theorem basketVerdict_congr (usdcFlatTargets : FlatTargets) {writes other : Leg → Option Row}
    (heq : ∀ member ∈ members, writes member = other member) (staleS now : ℚ) (leg : Leg)
    (position : ℚ) :
    basketVerdict usdcFlatTargets members staleS writes now leg position =
      basketVerdict usdcFlatTargets members staleS other now leg position := by
  have hraised : ∀ mode, Raised members staleS now writes mode ↔
      Raised members staleS now other mode := by
    intro mode
    refine exists_congr fun member => and_congr_right fun hmember => ?_
    rw [heq member hmember]
  have hcomplete : Complete members staleS now writes ↔ Complete members staleS now other := by
    refine forall₂_congr fun member hmember => ?_
    rw [heq member hmember]
  have htargets : (fun member => if member ∈ members then
        (writes member).map fun row => (row.position, row.mid) else none) =
      fun member => if member ∈ members then
        (other member).map fun row => (row.position, row.mid) else none := by
    funext member
    split
    next hmember => rw [heq member hmember]
    next => rfl
  simp only [basketVerdict, hraised, hcomplete, htargets]

namespace Request

/-- The row the request writes, under its leg's name, if it is accepted. -/
def write? (request : Request members) : Option (String × Row) :=
  (acceptRow members request.call).toOption.map fun row => (request.call.leg.name, row)

/-- The rows a leg had accepted, oldest first. -/
def writesOf (leg : Leg) (requests : List (Request members)) : List Row :=
  requests.filterMap fun request =>
    if request.call.leg = leg then (acceptRow members request.call).toOption else none

/-- The leg's last accepted row, or the one the table held before. -/
def lastRow (table : Table) (requests : List (Request members)) (leg : Leg) : Option Row :=
  lastWrite (table.lookup leg.name) (writesOf leg requests)

variable (usdcFlatTargets : FlatTargets) (table : Table)

theorem step_eq_write (request : Request members) :
    step usdcFlatTargets table request = table.write request.write? := by
  unfold step PortfolioStopBook.update write?
  cases acceptRow members request.call <;> rfl

theorem run_step_eq (requests : List (Request members)) :
    run (step usdcFlatTargets) table requests =
      run Registry.write table (requests.map write?) := by
  induction requests generalizing table with
  | nil => rfl
  | cons request rest ih => rw [run_cons, List.map_cons, run_cons, ih, step_eq_write]

theorem mem_of_accepted {call : UpdateCall} {row : Row}
    (haccepted : acceptRow members call = .ok row) : call.leg ∈ members := by
  unfold acceptRow at haccepted
  split at haccepted
  next => cases haccepted
  next =>
    split at haccepted
    next => cases haccepted
    next hmember => exact not_not.mp hmember

/-- Under distinct names, the rows written under a member's name are its own. -/
theorem writesTo_eq_writesOf (hnames : Set.InjOn Leg.name members) {leg : Leg}
    (hleg : leg ∈ members) (requests : List (Request members)) :
    writesTo leg.name (requests.map write?) = writesOf leg requests := by
  simp only [writesTo, writesOf, List.filterMap_map]
  refine List.filterMap_congr fun request _ => ?_
  simp only [Function.comp_apply, write?]
  cases haccepted : acceptRow members request.call with
  | error message => simp [Except.toOption]
  | ok row =>
      have hmember := mem_of_accepted haccepted
      by_cases heq : request.call.leg = leg
      · simp [Except.toOption, heq]
      · have hne : request.call.leg.name ≠ leg.name := fun hname =>
          heq (hnames hmember hleg hname)
        simp [Except.toOption, heq, hne]

theorem lookup_run_step (hnames : Set.InjOn Leg.name members) {leg : Leg}
    (hleg : leg ∈ members) (requests : List (Request members)) :
    (run (step usdcFlatTargets) table requests).lookup leg.name = lastRow table requests leg := by
  rw [run_step_eq, lookup_run_write, writesTo_eq_writesOf hnames hleg, lastRow]

/-- An accepted request is answered from the table it leaves. -/
theorem answer_of_accepted {request : Request members} {row : Row}
    (haccepted : acceptRow members request.call = .ok row) :
    request.answer usdcFlatTargets table = .ok (request.book.verdict usdcFlatTargets
      (step usdcFlatTargets table request) request.call.leg row) := by
  simp only [answer, step, PortfolioStopBook.update, haccepted]

theorem rejected {request : Request members} {message : String}
    (hrejected : acceptRow members request.call = .error message) :
    step usdcFlatTargets table request = table ∧
      request.answer usdcFlatTargets table = .error message := by
  simp only [step, answer, PortfolioStopBook.update, hrejected, and_self]

/-! ## Reordering -/

/-- The tables hold the same rows for the members. -/
def SameRows (members : Finset Leg) (first second : Table) : Prop :=
  ∀ member ∈ members, first.lookup member.name = second.lookup member.name

variable {usdcFlatTargets} {first second : Table}

theorem SameRows.step (h : SameRows members first second) (request : Request members) :
    SameRows members (step usdcFlatTargets first request)
      (step usdcFlatTargets second request) := by
  intro member hmember
  rw [step_eq_write, step_eq_write]
  cases request.write? with
  | none => exact h member hmember
  | some entry =>
      simp only [Registry.write, Registry.lookup_set]
      split
      · rfl
      · exact h member hmember

theorem SameRows.answer (hnames : Set.InjOn Leg.name members)
    (h : SameRows members first second) (request : Request members) :
    request.answer usdcFlatTargets first = request.answer usdcFlatTargets second := by
  cases haccepted : acceptRow members request.call with
  | error message => rw [(rejected _ _ haccepted).2, (rejected _ _ haccepted).2]
  | ok row =>
      rw [answer_of_accepted _ _ haccepted, answer_of_accepted _ _ haccepted,
        PortfolioStopBook.verdict_eq _ _ _ hnames, PortfolioStopBook.verdict_eq _ _ _ hnames]
      congr 1
      exact basketVerdict_congr _ (h.step request) _ _ _ _

theorem SameRows.answers (hnames : Set.InjOn Leg.name members)
    (h : SameRows members first second) (later : List (Request members)) :
    answers usdcFlatTargets first later = answers usdcFlatTargets second later := by
  induction later generalizing first second with
  | nil => rfl
  | cons request rest ih =>
      simp only [answers, emitted_cons] at ih ⊢
      rw [h.answer hnames, ih (h.step request)]

theorem writesOf_filter (leg : Leg) (requests : List (Request members)) :
    writesOf leg (requests.filter (·.call.leg = leg)) = writesOf leg requests := by
  simp only [writesOf, List.filterMap_filter, decide_eq_true_eq]
  refine List.filterMap_congr fun request _ => ?_
  split <;> rfl

end Request

/-- For any table and any requests through books with the same members: an
accepted request is answered by the verdict on each member's last accepted
write, its own included; a rejected one changes nothing; and earlier requests
may be reordered between legs without changing any later answer. -/
theorem verdicts_from_last_writes (usdcFlatTargets : FlatTargets)
    (hnames : Set.InjOn Leg.name members) (table : Table) (requests : List (Request members)) :
    (∀ (request : Request members) (row : Row), acceptRow members request.call = .ok row →
      request.answer usdcFlatTargets (run (Request.step usdcFlatTargets) table requests) =
        .ok (basketVerdict usdcFlatTargets members request.book.staleS
          (Request.lastRow table (requests ++ [request])) row.ts request.call.leg row.position)) ∧
      (∀ (request : Request members) (message : String),
        acceptRow members request.call = .error message →
        request.step usdcFlatTargets (run (Request.step usdcFlatTargets) table requests) =
            run (Request.step usdcFlatTargets) table requests ∧
          request.answer usdcFlatTargets (run (Request.step usdcFlatTargets) table requests) =
            .error message) ∧
      (∀ reordered : List (Request members),
        (∀ leg, reordered.filter (·.call.leg = leg) = requests.filter (·.call.leg = leg)) →
        ∀ later : List (Request members),
          Request.answers usdcFlatTargets (run (Request.step usdcFlatTargets) table reordered)
              later =
            Request.answers usdcFlatTargets (run (Request.step usdcFlatTargets) table requests)
              later) := by
  refine ⟨fun request row haccepted => ?_, fun request message hrejected =>
    Request.rejected _ _ hrejected, fun reordered hsame later => ?_⟩
  · rw [Request.answer_of_accepted _ _ haccepted, PortfolioStopBook.verdict_eq _ _ _ hnames]
    congr 1
    refine basketVerdict_congr _ (fun member hmember => ?_) _ _ _ _
    rw [← Request.lookup_run_step usdcFlatTargets table hnames hmember, run_append]
    rfl
  · refine Request.SameRows.answers hnames (fun member hmember => ?_) later
    rw [Request.lookup_run_step _ _ hnames hmember, Request.lookup_run_step _ _ hnames hmember,
      Request.lastRow, Request.lastRow, ← Request.writesOf_filter, hsame member,
      Request.writesOf_filter]

/-- One leg asks for a stop and the others quote: the last of the four to write
learns the stop and its own target. -/
theorem verdicts_from_last_writes_stop :
    let requests := [report ethLong (2 / 5) 3000 "stop" 100, report solShort (-4) 100 "quote" 100,
      report ethShort (-3 / 10) 3000 "quote" 100]
    (report solLong 2 100 "quote" 100).answer sampleTargets
      (run (Request.step sampleTargets) Registry.empty requests) = .ok (.stop, 2) := by
  intro requests
  have hnames : Set.InjOn Leg.name sampleMembers :=
    Finset.card_image_iff.mp (by decide +kernel)
  rw [(verdicts_from_last_writes sampleTargets hnames Registry.empty requests).1
    (report solLong 2 100 "quote" 100) { ts := 100, position := 2, mid := 100, mode := .quote }
    (by decide +kernel)]
  decide +kernel

end Opms.PortfolioStop
