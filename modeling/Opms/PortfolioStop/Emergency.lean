import Opms.PortfolioStop.Verdict
import Mathlib.Tactic.Linarith

/-! # Emergencies between legs

A leg publishes an emergency by overwriting its own row, and takes it back the
same way. A sibling that updates in between sees it; one that comes later sees
whatever the row says by then, however fresh the emergency would still be.
-/

namespace Opms.PortfolioStop

open Foundation

variable {members : Finset Leg} (usdcFlatTargets : FlatTargets)

/-- The accepted rows of a run, each under its leg's name. -/
def accepted (requests : List (Request members)) : List (String × Row) :=
  requests.filterMap Request.write?

/-- Accepted updates carry times that never decrease. -/
def Timely (requests : List (Request members)) : Prop :=
  (accepted requests).Pairwise fun earlier later => earlier.2.ts ≤ later.2.ts

instance (requests : List (Request members)) : Decidable (Timely requests) :=
  inferInstanceAs (Decidable (List.Pairwise _ _))

/-- `source` publishes an emergency, and `reader` is the first accepted update
of another leg since, no later than its `stale_s` after the publication. -/
structure FirstReader (source : Request members) (between : List (Request members))
    (reader : Request members) (published read : Row) : Prop where
  publishes : acceptRow members source.call = .ok published
  emergency : published.mode = .emergency
  sibling : reader.call.leg ≠ source.call.leg
  reads : acceptRow members reader.call = .ok read
  first : ∀ request ∈ between, request.call.leg = reader.call.leg →
    ∀ row, acceptRow members request.call ≠ .ok row
  recent : read.ts ≤ published.ts + reader.book.staleS

/-- What was last written under a name since the publication says emergency. -/
def Stands (name : String) (since : List (Request members)) : Prop :=
  ∀ row ∈ (writesTo name (since.map Request.write?)).getLast?, row.mode = .emergency

/-- A member under another name, the reader included, has a fresh emergency. -/
def RaisedElsewhere (source reader : Request members) (now : ℚ) (table : Table) : Prop :=
  ∃ member ∈ members, member.name ≠ source.call.leg.name ∧
    ∃ row ∈ table.lookup member.name, row.Fresh reader.book.staleS now ∧ row.mode = .emergency

/-- The basket answers emergency, with a zero target, iff some member raised one. -/
theorem verdict_emergency_iff (book : PortfolioStopBook members) (table : Table) (leg : Leg)
    (row : Row) :
    book.verdict usdcFlatTargets table leg row = (.emergency, 0) ↔
      Raised members book.staleS row.ts (fun leg => table.lookup leg.name) .emergency := by
  rw [← PortfolioStopBook.any_fresh_iff book table row.ts .emergency]
  unfold PortfolioStopBook.verdict
  dsimp only
  split
  next hraised => simp [hraised]
  next hquiet =>
    refine iff_of_false (fun heq => ?_) hquiet
    split at heq
    · cases heq
    · split at heq <;> cases heq

/-- The rows written later are dated no earlier. -/
theorem Timely.le_of_mem {first second : List (Request members)}
    (htimely : Timely (first ++ second)) {name other : String} {earlier later : Row}
    (hearlier : (name, earlier) ∈ accepted first) (hlater : (other, later) ∈ accepted second) :
    earlier.ts ≤ later.ts := by
  unfold Timely accepted at htimely
  rw [List.filterMap_append] at htimely
  exact (List.pairwise_append.mp htimely).2.2 (name, earlier) hearlier (other, later) hlater

theorem mem_accepted_of_mem_writesTo {requests : List (Request members)} {name : String}
    {row : Row} (hrow : row ∈ writesTo name (requests.map Request.write?)) :
    (name, row) ∈ accepted requests := by
  simp only [writesTo, List.mem_filterMap, List.mem_map, Option.map_eq_some_iff] at hrow
  obtain ⟨_, ⟨request, hrequest, rfl⟩, entry, hentry, rfl⟩ := hrow
  obtain ⟨hwrite, hname⟩ := Option.filter_eq_some_iff.mp hentry
  obtain rfl := of_decide_eq_true hname
  exact List.mem_filterMap.mpr ⟨request, hrequest, hwrite⟩

section Reader

variable {before between after : List (Request members)} {source reader : Request members}
  {published read : Row} (h : FirstReader source between reader published read)

include h

theorem FirstReader.write_source : source.write? = some (source.call.leg.name, published) := by
  simp [Request.write?, h.publishes, Except.toOption]

theorem FirstReader.write_reader : reader.write? = some (reader.call.leg.name, read) := by
  simp [Request.write?, h.reads, Except.toOption]

variable (before) in
/-- The source's row when the reader looks: its last write since, or the publication. -/
theorem FirstReader.source_row (table : Table) :
    (run (Request.step usdcFlatTargets) table (before ++ source :: between ++ [reader])).lookup
        source.call.leg.name =
      lastWrite (some published)
        (writesTo source.call.leg.name ((between ++ [reader]).map Request.write?)) := by
  have hsplit : before ++ source :: between ++ [reader] =
      before ++ [source] ++ (between ++ [reader]) := by simp
  rw [hsplit, Request.run_step_eq, lookup_run_write, List.map_append, writesTo_append,
    lastWrite_append, List.map_append, writesTo_append, lastWrite_append]
  congr 1
  simp [writesTo, lastWrite, h.write_source]

/-- Until the reader looks, the source's row cannot have gone stale. -/
theorem FirstReader.source_fresh
    (htimely : Timely (before ++ source :: between ++ reader :: after)) {row : Row}
    (hrow : lastWrite (some published)
      (writesTo source.call.leg.name ((between ++ [reader]).map Request.write?)) = some row) :
    row.Fresh reader.book.staleS read.ts := by
  have hearly : Timely ((before ++ [source]) ++ (between ++ reader :: after)) := by
    simpa using htimely
  have hsource : (source.call.leg.name, published) ∈ accepted (before ++ [source]) :=
    List.mem_filterMap.mpr ⟨source, by simp, h.write_source⟩
  have hreader : (reader.call.leg.name, read) ∈ accepted (reader :: after) :=
    List.mem_filterMap.mpr ⟨reader, by simp, h.write_reader⟩
  have hlater : ∀ entry ∈ accepted (reader :: after),
      entry ∈ accepted (between ++ reader :: after) := by
    intro entry hentry
    rw [accepted, List.filterMap_append]
    exact List.mem_append_right _ hentry
  have hread := hearly.le_of_mem hsource (hlater _ hreader)
  have hbounds : published.ts ≤ row.ts ∧ row.ts ≤ read.ts := by
    rcases Option.or_eq_some_iff.mp hrow with hwritten | ⟨-, hsame⟩
    · have hmem := mem_accepted_of_mem_writesTo (List.mem_of_getLast? hwritten)
      rw [accepted, List.filterMap_append, List.mem_append] at hmem
      rcases hmem with hbetween | hown
      · have hwithin : (source.call.leg.name, row) ∈ accepted (before ++ source :: between) := by
          rw [accepted, List.filterMap_append, List.filterMap_cons, h.write_source]
          exact List.mem_append_right _ (List.mem_cons_of_mem _ hbetween)
        have hsince : (source.call.leg.name, row) ∈ accepted (between ++ reader :: after) := by
          rw [accepted, List.filterMap_append]
          exact List.mem_append_left _ hbetween
        exact ⟨hearly.le_of_mem hsource hsince, htimely.le_of_mem hwithin hreader⟩
      · have hreaderRow : (source.call.leg.name, row) = (reader.call.leg.name, read) := by
          simpa [h.write_reader] using hown
        rw [(Prod.mk.inj hreaderRow).2]
        exact ⟨hread, le_rfl⟩
    · rw [← Option.some.inj hsame]
      exact ⟨le_rfl, hread⟩
  have hrecent := h.recent
  exact ⟨(by linarith [hbounds.1]), by linarith [hbounds.2]⟩

/-- The first reader is told of the emergency iff the source's row still says so
or another member raised one. -/
theorem FirstReader.told_iff (table : Table)
    (htimely : Timely (before ++ source :: between ++ reader :: after)) :
    reader.answer usdcFlatTargets
        (run (Request.step usdcFlatTargets) table (before ++ source :: between)) =
        .ok (.emergency, 0) ↔
      Stands source.call.leg.name (between ++ [reader]) ∨
        RaisedElsewhere source reader read.ts
          (run (Request.step usdcFlatTargets) table (before ++ source :: between ++ [reader])) := by
  have htable : Request.step usdcFlatTargets
      (run (Request.step usdcFlatTargets) table (before ++ source :: between)) reader =
      run (Request.step usdcFlatTargets) table (before ++ source :: between ++ [reader]) := by
    rw [run_append _ _ (before ++ source :: between)]
    rfl
  have hrow := h.source_row usdcFlatTargets before table
  rw [Request.answer_of_accepted _ _ h.reads, Except.ok.injEq, verdict_emergency_iff, htable]
  generalize run (Request.step usdcFlatTargets) table
    (before ++ source :: between ++ [reader]) = final at hrow ⊢
  have hmember : source.call.leg ∈ members := Request.mem_of_accepted h.publishes
  constructor
  · rintro ⟨member, hin, row, hlook, hfresh, hmode⟩
    by_cases hname : member.name = source.call.leg.name
    · refine .inl fun last hlast => ?_
      have hlook : final.lookup member.name = some row := hlook
      rw [hname, hrow, lastWrite, Option.mem_def.mp hlast, Option.some_or] at hlook
      rw [Option.some.inj hlook]
      exact hmode
    · exact .inr ⟨member, hin, hname, row, hlook, hfresh, hmode⟩
  · rintro (hstands | ⟨member, hin, -, row, hlook, hfresh, hmode⟩)
    · cases hwrites : lastWrite (some published)
          (writesTo source.call.leg.name ((between ++ [reader]).map Request.write?)) with
      | none => simp [lastWrite] at hwrites
      | some row =>
          refine ⟨source.call.leg, hmember, row, hrow.trans hwrites,
            h.source_fresh htimely hwrites, ?_⟩
          rcases Option.or_eq_some_iff.mp hwrites with hwritten | ⟨-, hsame⟩
          · exact hstands row hwritten
          · rw [← Option.some.inj hsame]
            exact h.emergency
    · exact ⟨member, hin, row, hlook, hfresh, hmode⟩

end Reader

/-- Every sibling is told of every emergency it reads in time, in a run, exactly
when at each such reading the emergency still stands in its leg's row or
another member raised one. -/
theorem emergency_told_iff (members : Finset Leg) (table : Table)
    (requests : List (Request members)) (htimely : Timely requests) :
    (∀ before source between reader after published read,
        requests = before ++ source :: between ++ reader :: after →
        FirstReader source between reader published read →
        reader.answer usdcFlatTargets
          (run (Request.step usdcFlatTargets) table (before ++ source :: between)) =
          .ok (.emergency, 0)) ↔
      ∀ before source between reader after published read,
        requests = before ++ source :: between ++ reader :: after →
        FirstReader source between reader published read →
        Stands source.call.leg.name (between ++ [reader]) ∨
          RaisedElsewhere source reader read.ts
            (run (Request.step usdcFlatTargets) table
              (before ++ source :: between ++ [reader])) := by
  constructor
  · rintro htold before source between reader after published read rfl h
    exact (h.told_iff usdcFlatTargets table htimely).mp (htold _ _ _ _ _ _ _ rfl h)
  · rintro hstands before source between reader after published read rfl h
    exact (h.told_iff usdcFlatTargets table htimely).mpr (hstands _ _ _ _ _ _ _ rfl h)

/-- A sibling that updates a second after the emergency is told of it. -/
theorem emergency_told_iff_standing :
    (report ethShort (-3 / 10) 3000 "quote" 101).answer sampleTargets
      (run (Request.step sampleTargets) Registry.empty
        [report ethLong (2 / 5) 3000 "emergency" 100]) = .ok (.emergency, 0) := by
  refine (emergency_told_iff sampleTargets sampleMembers Registry.empty
    [report ethLong (2 / 5) 3000 "emergency" 100, report ethShort (-3 / 10) 3000 "quote" 101]
    (by decide +kernel)).mpr ?_ [] _ [] _ []
    { ts := 100, position := 2 / 5, mid := 3000, mode := .emergency }
    { ts := 101, position := -3 / 10, mid := 3000, mode := .quote } rfl
    ⟨by decide +kernel, rfl, by decide, by decide +kernel, (fun _ h => by cases h),
      by decide +kernel⟩
  intro before source between reader after published read hsplit _
  -- two requests leave no room for anything before, between or after them
  have hlength := congrArg List.length hsplit
  simp only [List.length_cons, List.length_nil, List.length_append] at hlength
  obtain rfl : before = [] := List.eq_nil_of_length_eq_zero (by omega)
  obtain rfl : between = [] := List.eq_nil_of_length_eq_zero (by omega)
  obtain ⟨rfl, rfl, rfl⟩ : source = report ethLong (2 / 5) 3000 "emergency" 100 ∧
      reader = report ethShort (-3 / 10) 3000 "quote" 101 ∧ after = [] := by
    simpa [eq_comm] using hsplit
  refine .inl fun row hrow => ?_
  have hnone : writesTo (report ethLong (2 / 5) 3000 "emergency" 100).call.leg.name
      (([] ++ [report ethShort (-3 / 10) 3000 "quote" 101]).map Request.write?) = [] := by
    decide +kernel
  rw [hnone] at hrow
  cases hrow

/-- The basket quotes; one leg publishes an emergency at 100 and quotes again at
101. A sibling's first update at 102, well within `stale_s`, is told to quote. -/
theorem withdrawn_emergency_is_lost :
    let quoting := [report ethLong (2 / 5) 3000 "quote" 99, report solShort (-4) 100 "quote" 99,
      report ethShort (-3 / 10) 3000 "quote" 99, report solLong 2 100 "quote" 99]
    let source := report ethLong (2 / 5) 3000 "emergency" 100
    let withdrawal := report ethLong (2 / 5) 3000 "quote" 101
    let reader := report ethShort (-3 / 10) 3000 "quote" 102
    Timely (quoting ++ source :: [withdrawal] ++ [reader]) ∧
      FirstReader source [withdrawal] reader
        { ts := 100, position := 2 / 5, mid := 3000, mode := .emergency }
        { ts := 102, position := -3 / 10, mid := 3000, mode := .quote } ∧
      reader.answer sampleTargets
        (run (Request.step sampleTargets) Registry.empty (quoting ++ source :: [withdrawal])) =
        .ok (.quote, -3 / 10) := by
  refine ⟨by decide +kernel, ⟨by decide +kernel, rfl, by decide, by decide +kernel, ?_,
    by decide +kernel⟩, by decide +kernel⟩
  intro request hrequest hleg
  rw [List.mem_singleton.mp hrequest] at hleg
  exact absurd hleg (by decide)

end Opms.PortfolioStop
