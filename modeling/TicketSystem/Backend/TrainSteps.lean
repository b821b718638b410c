import TicketSystem.Backend.Consistency

/-!
# Adding, releasing and deleting trains

For each handler a lemma says what a step can do and another derives from it
that the databases stay consistent.
-/

namespace TicketSystem.Backend

open TicketSystem.Support
open TicketSystem.Database

namespace TrainManagement

variable {trains trains' : TrainManagement}

/-! ## The released trains -/

/-- A new train is not released. -/
theorem released_insertEntry_iff {trainId : String} {newTrain : Train}
    (hnone : trains.trainDatabase.map.find? trainId = none)
    (hunreleased : newTrain.isReleased = false) (tid : String) (tr : Train) :
    ({ trains with
        trainDatabase := trains.trainDatabase.insertEntry trainId newTrain } :
      TrainManagement).Released tid tr ↔ trains.Released tid tr := by
  simp only [Released, Index.map_insertEntry, SortedMap.find?_insert]
  by_cases heq : tid = trainId
  · subst heq
    rw [if_pos rfl, hnone]
    constructor
    · rintro ⟨hsome, hreleased⟩
      obtain rfl := Option.some.inj hsome
      simp [hunreleased] at hreleased
    · rintro ⟨hsome, -⟩
      cases hsome
  · rw [if_neg heq]

/-- Only trains that are not released are deleted. -/
theorem released_deleteEntry_iff {trainId : String} {train : Train}
    (hfind : trains.trainDatabase.map.find? trainId = some train)
    (hunreleased : train.isReleased = false) (tid : String) (tr : Train) :
    ({ trains with
        trainDatabase := trains.trainDatabase.deleteEntry trainId } :
      TrainManagement).Released tid tr ↔ trains.Released tid tr := by
  simp only [Released, Index.map_deleteEntry, SortedMap.find?_erase]
  by_cases heq : tid = trainId
  · rw [if_pos heq, heq, hfind]
    constructor
    · rintro ⟨hsome, -⟩
      cases hsome
    · rintro ⟨hsome, hreleased⟩
      obtain rfl := Option.some.inj hsome
      simp [hunreleased] at hreleased
  · rw [if_neg heq]

/-- The released trains after a release are those from before and this
one. -/
theorem released_release_iff (trainId : String) (train : Train)
    (tid : String) (tr : Train) :
    (trains.release trainId train).Released tid tr ↔
      if tid = trainId then tr = { train with isReleased := true }
      else trains.Released tid tr := by
  simp only [Released, release, Index.map_insertEntry,
    SortedMap.find?_insert]
  by_cases htid : tid = trainId
  · rw [if_pos htid, if_pos htid]
    constructor
    · rintro ⟨hsome, -⟩
      exact (Option.some.inj hsome).symm
    · rintro rfl
      exact ⟨rfl, rfl⟩
  · rw [if_neg htid, if_neg htid]

/-- A train that is not released is not among the released ones. -/
theorem not_released {trainId : String} {train : Train}
    (hfind : trains.trainDatabase.map.find? trainId = some train)
    (hunreleased : train.isReleased = false) (train' : Train) :
    ¬ trains.Released trainId train' := by
  rintro ⟨hfind', hreleased⟩
  obtain rfl := Option.some.inj (hfind.symm.trans hfind')
  simp [hunreleased] at hreleased

/-! ## Adding and deleting trains -/

theorem addTrainWith_cases {args : TrainArgs} {reply : TrainReply}
    (h : trains.addTrainWith args = some (reply, trains')) :
    trains' = trains ∨
      trains.trainDatabase.map.find? args.trainId = none ∧
        ∃ newTrain, Train.make args.trainId args.stationNum.toNat
            args.seatNum args.stations args.prices args.startTime
            args.travelTimes args.stopOverTimes args.saleDate args.type =
              some newTrain ∧
          trains' =
            { trains with
              trainDatabase :=
                trains.trainDatabase.insertEntry args.trainId newTrain } := by
  unfold addTrainWith at h
  cases hfind : trains.trainDatabase.map.find? args.trainId with
  | some train =>
      simp only [Index.searchKey_of_find? hfind, Option.toList_some, ne_eq,
        List.cons_ne_self, not_false_eq_true, if_true,
        Option.some.injEq, Prod.mk.injEq] at h
      exact Or.inl h.2.symm
  | none =>
      simp only [Index.searchKey_of_find? hfind, Option.toList_none, ne_eq,
        not_true_eq_false, if_false] at h
      by_cases hrange : args.stationNum < 1 ∨ 100 < args.stationNum
      · rw [if_pos hrange] at h
        cases h
      · rw [if_neg hrange] at h
        simp only [Option.bind_eq_bind, Option.bind_eq_some_iff,
          Option.some.injEq, Prod.mk.injEq] at h
        obtain ⟨newTrain, hmake, -, rfl⟩ := h
        exact Or.inr ⟨rfl, newTrain, hmake, rfl⟩

theorem consistent_addTrainWith (h : trains.Consistent) {args : TrainArgs}
    (hwf : args.WellFormed) {reply : TrainReply}
    (hstep : trains.addTrainWith args = some (reply, trains')) :
    trains'.Consistent := by
  rcases addTrainWith_cases hstep with rfl | ⟨hnone, newTrain, hmake, rfl⟩
  · exact h
  obtain ⟨htid, hnum, htotal, hunreleased, -⟩ := Train.make_eq_some hmake
  have hlen := hwf.length_eq
  have htwo := hwf.two_le
  refine h.of_released_iff ?_ ?_ rfl
  · intro trainId train hfind
    simp only [Index.map_insertEntry, SortedMap.find?_insert] at hfind
    by_cases heq : trainId = args.trainId
    · rw [if_pos heq] at hfind
      obtain rfl := Option.some.inj hfind
      refine ⟨by rw [htid, heq], by omega, ?_, ?_, ?_⟩
      · rw [htotal]
        exact hwf.seatNum_pos
      · exact Train.dvd_startSaleDate_of_make hmake
          (length_eq_of_isDate hwf.isDate_start)
      intro i j hi hin hj hjn hname
      exact Train.stations_injective_of_make hmake (by omega) hwf.nodup hi
        (by omega) hj (by omega) hname
    · rw [if_neg heq] at hfind
      exact h.train_sound trainId train hfind
  · exact released_insertEntry_iff hnone hunreleased

theorem deleteTrain_cases (trains : TrainManagement) (line : List String) :
    (trains.deleteTrain line).2 = trains ∨
      ∃ trainId train, trains.trainDatabase.map.find? trainId = some train ∧
        train.isReleased = false ∧
        (trains.deleteTrain line).2 =
          { trains with
            trainDatabase := trains.trainDatabase.deleteEntry trainId } := by
  simp only [deleteTrain]
  cases hfind : trains.trainDatabase.map.find? (nthToken line 1) with
  | none => simp [Index.searchKey_of_find? hfind]
  | some train =>
      simp only [Index.searchKey_of_find? hfind, Option.toList_some]
      cases hreleased : train.isReleased with
      | true => exact Or.inl rfl
      | false =>
          exact Or.inr ⟨nthToken line 1, train, hfind, hreleased, rfl⟩

theorem consistent_deleteTrain (h : trains.Consistent)
    (line : List String) : (trains.deleteTrain line).2.Consistent := by
  rcases deleteTrain_cases trains line with
    hsame | ⟨trainId, train, hfind, hunreleased, hdel⟩
  · rw [hsame]
    exact h
  rw [hdel]
  refine h.of_released_iff ?_ ?_ rfl
  · intro trainId' train' hfind'
    simp only [Index.map_deleteEntry, SortedMap.find?_erase] at hfind'
    by_cases heq : trainId' = trainId
    · rw [if_pos heq] at hfind'
      cases hfind'
    · rw [if_neg heq] at hfind'
      exact h.train_sound trainId' train' hfind'
  · exact released_deleteEntry_iff hfind hunreleased

/-! ## Releasing a train -/

theorem find?_insertDays (database : Index StringAny DayTrain)
    (trainId : String) (daytrain : DayTrain) (days : List TimeType)
    (key : StringAny) :
    (insertDays database trainId daytrain days).map.find? key =
      if key.dataStr = trainId ∧ key.dataT ∈ days then some daytrain
      else database.map.find? key := by
  unfold insertDays
  induction days generalizing database with
  | nil => simp
  | cons day days ih =>
      rw [List.foldl_cons, ih]
      by_cases hin : key.dataStr = trainId ∧ key.dataT ∈ days
      · rw [if_pos hin, if_pos ⟨hin.1, List.mem_cons_of_mem day hin.2⟩]
      · rw [if_neg hin, Index.map_insertEntry]
        by_cases hkey : key = ⟨trainId, day⟩
        · subst hkey
          simp
        · rw [SortedMap.find?_insert_of_ne _ _ hkey, if_neg]
          rintro ⟨htid, hmem⟩
          rcases List.mem_cons.mp hmem with hday | hmem
          · exact hkey (StringAny.ext htid hday)
          · exact hin ⟨htid, hmem⟩

/-- Stations of other trains or names are left alone. -/
theorem find?_insertStations_of_ne (database : Index DualString Station)
    (trainId : String) (train : Train) (is : List ℕ) {key : DualString}
    (hne : key.secondStr = trainId →
      ∀ i ∈ is, train.stations i ≠ key.firstStr) :
    (insertStations database trainId train is).map.find? key =
      database.map.find? key := by
  unfold insertStations
  induction is generalizing database with
  | nil => rfl
  | cons i is ih =>
      rw [List.foldl_cons,
        ih _ fun htid i' hi' => hne htid i' (List.mem_cons_of_mem i hi'),
        Index.map_insertEntry, SortedMap.find?_insert_of_ne]
      rintro rfl
      exact hne rfl i List.mem_cons_self rfl

/-- An entry after the loop is one of the train's stations or was there
before. -/
theorem find?_insertStations_cases {database : Index DualString Station}
    {trainId : String} {train : Train} {is : List ℕ} {key : DualString}
    {station : Station}
    (h : (insertStations database trainId train is).map.find? key =
      some station) :
    (key.secondStr = trainId ∧ ∃ i, station = train.station trainId i) ∨
      database.map.find? key = some station := by
  unfold insertStations at h
  induction is generalizing database with
  | nil => exact Or.inr h
  | cons i is ih =>
      rw [List.foldl_cons] at h
      rcases ih h with hnew | hold
      · exact Or.inl hnew
      · rw [Index.map_insertEntry, SortedMap.find?_insert] at hold
        by_cases hkey : key = ⟨train.stations i, trainId⟩
        · rw [if_pos hkey] at hold
          exact Or.inl ⟨by rw [hkey], i, (Option.some.inj hold).symm⟩
        · rw [if_neg hkey] at hold
          exact Or.inr hold

theorem find?_insertStations_of_mem (database : Index DualString Station)
    (trainId : String) (train : Train) (is : List ℕ) {i : ℕ} (hi : i ∈ is)
    (hinj : ∀ i' ∈ is, train.stations i' = train.stations i → i' = i) :
    (insertStations database trainId train is).map.find?
        ⟨train.stations i, trainId⟩ = some (train.station trainId i) := by
  unfold insertStations
  induction is generalizing database with
  | nil => cases hi
  | cons i' is ih =>
      rw [List.foldl_cons]
      by_cases hmem : i ∈ is
      · exact ih _ hmem fun i'' hi'' =>
          hinj i'' (List.mem_cons_of_mem i' hi'')
      · obtain rfl : i = i' := (List.mem_cons.mp hi).resolve_right hmem
        have hrest : ∀ i'' ∈ is, train.stations i'' ≠ train.stations i :=
          fun i'' hi'' heq =>
            hmem (hinj i'' (List.mem_cons_of_mem i hi'') heq ▸ hi'')
        refine (find?_insertStations_of_ne _ trainId train is
          fun _ => hrest).trans ?_
        rw [Index.map_insertEntry, SortedMap.find?_insert_self]

theorem releaseTrain_cases (trains : TrainManagement)
    (line : List String) :
    (trains.releaseTrain line).2 = trains ∨
      ∃ trainId train, trains.trainDatabase.map.find? trainId = some train ∧
        train.isReleased = false ∧
        (trains.releaseTrain line).2 = trains.release trainId train := by
  simp only [releaseTrain]
  cases hfind : trains.trainDatabase.map.find? (nthToken line 1) with
  | none => simp [Index.searchKey_of_find? hfind]
  | some train =>
      simp only [Index.searchKey_of_find? hfind, Option.toList_some]
      cases hreleased : train.isReleased with
      | true => exact Or.inl rfl
      | false =>
          exact Or.inr ⟨nthToken line 1, train, hfind, hreleased, rfl⟩

theorem consistent_release (h : trains.Consistent) {trainId : String}
    {train : Train}
    (hfind : trains.trainDatabase.map.find? trainId = some train)
    (hunreleased : train.isReleased = false) :
    (trains.release trainId train).Consistent := by
  have hsound := h.train_sound trainId train hfind
  have hnot := not_released hfind hunreleased
  have hrel := @released_release_iff trains trainId train
  have hfindDay : ∀ key,
      (trains.release trainId train).daytrainDatabase.map.find? key =
        if key.dataStr = trainId ∧
            key.dataT ∈ saleDays train.startSaleDate train.endSaleDate then
          some (DayTrain.full train)
        else trains.daytrainDatabase.map.find? key :=
    fun key => find?_insertDays _ _ _ _ key
  constructor
  case train_sound =>
    intro tid tr hfind'
    simp only [release, Index.map_insertEntry, SortedMap.find?_insert]
      at hfind'
    by_cases htid : tid = trainId
    · rw [if_pos htid] at hfind'
      obtain rfl := Option.some.inj hfind'
      rw [htid]
      exact ⟨hsound.trainId_eq, hsound.two_le, hsound.totalSeatNum_pos,
        hsound.dvd_startSaleDate, hsound.stations_inj⟩
    · rw [if_neg htid] at hfind'
      exact h.train_sound tid tr hfind'
  case station_iff =>
    intro name tid station
    simp only [hrel]
    by_cases htid : tid = trainId
    · subst htid
      simp only [if_true]
      by_cases hname : ∃ i ∈ loopRange 1 train.stationNum,
          train.stations i = name
      · obtain ⟨i, hi, rfl⟩ := hname
        have hin := mem_loopRange.mp hi
        rw [release, find?_insertStations_of_mem _ _ _ _ hi
          fun i' hi' heq => hsound.stations_inj i' i
            (mem_loopRange.mp hi').1 (mem_loopRange.mp hi').2 hin.1 hin.2 heq]
        constructor
        · intro heq
          exact ⟨_, i, rfl, hin.1, hin.2, rfl, Option.some.inj heq⟩
        · rintro ⟨_, i', rfl, hi', hin', heq, rfl⟩
          obtain rfl := hsound.stations_inj i' i hi' hin' hin.1 hin.2 heq
          rfl
      · have hold : trains.stationDatabase.map.find? ⟨name, tid⟩ = none := by
          by_contra hsome
          obtain ⟨st, hst⟩ := Option.ne_none_iff_exists'.mp hsome
          obtain ⟨tr, _, hrel', -⟩ := (h.station_iff _ _ _).mp hst
          exact hnot tr hrel'
        rw [release, find?_insertStations_of_ne _ _ _ _
          fun _ i hi heq => hname ⟨i, hi, heq⟩, hold]
        constructor
        · intro hc
          cases hc
        · rintro ⟨_, i, rfl, hi, hin, heq, -⟩
          exact absurd ⟨i, mem_loopRange.mpr ⟨hi, hin⟩, heq⟩ hname
    · simp only [if_neg htid]
      rw [release, find?_insertStations_of_ne _ _ _ _
        fun hc => absurd hc htid]
      exact h.station_iff name tid station
  case daytrain_iff =>
    intro tid day
    rw [hfindDay]
    simp only [hrel]
    by_cases htid : tid = trainId
    · subst htid
      simp only [true_and, if_true]
      by_cases hday : day ∈ saleDays train.startSaleDate train.endSaleDate
      · simp [hday]
      · have hold := (h.daytrain_iff tid day).not.mpr
          fun ⟨tr, hrel', _⟩ => hnot tr hrel'
        simp [hday, hold]
    · simp only [htid, false_and, if_false]
      exact h.daytrain_iff tid day
  case order_key => exact h.order_key
  case order_valid =>
    intro key order horder
    obtain ⟨tr, hrel', hvalid⟩ := h.order_valid key order horder
    refine ⟨tr, (hrel _ _).mpr ?_, hvalid⟩
    rw [if_neg]
    · exact hrel'
    · intro htid
      exact hnot tr (htid ▸ hrel')
  case order_le => exact h.order_le
  case order_inj => exact h.order_inj
  case orderNum_eq => exact h.orderNum_eq
  case pending_iff => exact h.pending_iff
  case seats =>
    intro tid tr day d hrel' hd j hj hjn
    rw [hrel] at hrel'
    rw [hfindDay] at hd
    have hbooked : (trains.release trainId train).booked tid day j =
        trains.booked tid day j := rfl
    rw [hbooked]
    by_cases htid : tid = trainId
    · subst htid
      rw [if_pos rfl] at hrel'
      subst hrel'
      by_cases hday : day ∈ saleDays train.startSaleDate train.endSaleDate
      · rw [if_pos ⟨rfl, hday⟩] at hd
        obtain rfl := Option.some.inj hd
        rw [h.booked_eq_zero hnot, @DayTrain.full_seatNum train j hj hjn.le]
        exact ⟨(sub_zero _).symm, hsound.totalSeatNum_pos.le⟩
      · rw [if_neg fun hc => hday hc.2] at hd
        obtain ⟨tr, hrel', -⟩ :=
          (h.daytrain_iff tid day).mp (by rw [hd]; rfl)
        exact absurd hrel' (hnot tr)
    · rw [if_neg htid] at hrel'
      rw [if_neg fun hc => htid hc.1] at hd
      exact h.seats tid tr day d hrel' hd j hj hjn

theorem consistent_releaseTrain (h : trains.Consistent)
    (line : List String) : (trains.releaseTrain line).2.Consistent := by
  rcases releaseTrain_cases trains line with
    hsame | ⟨trainId, train, hfind, hunreleased, hrel⟩
  · rw [hsame]
    exact h
  · rw [hrel]
    exact consistent_release h hfind hunreleased

end TrainManagement

end TicketSystem.Backend
