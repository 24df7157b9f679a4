import PiFunk.Getopt.Parse

/-!
# The calls deliver what the command line says

Between two calls the elements of `argv` lie in four segments: the ones that are done, the operands
skipped since then, the options processed since then, and the rest, which no call has touched.
Calling until the return value is -1 delivers the options in their order, and leaves the elements of
the options in front of the operands, both in their order, with `optind` at the first operand.
-/

namespace PiFunk.Getopt

open FuelLoop Segments

/-! ## Places in the command line -/

section Places

variable (config : Config)

/-- The state in which the elements lie in these segments. -/
def placed (optarg nextchar : Option (List Byte)) (done skipped recent rest : List CString) :
    State where
  argv := done ++ skipped ++ recent ++ rest
  optind := done.length + skipped.length + recent.length
  optarg
  nextchar
  first_nonopt := done.length
  last_nonopt := done.length + skipped.length
  ordering := config.ordering
  initialized := true

variable {optarg nextchar : Option (List Byte)} {done skipped recent rest : List CString}

theorem placed_getElem? (element : CString) :
    (placed config optarg nextchar done skipped recent (element :: rest)).argv[
      (placed config optarg nextchar done skipped recent (element :: rest)).optind]? =
        some element := by
  have hlength : done.length + skipped.length + recent.length =
      (done ++ skipped ++ recent).length := by
    simp only [List.length_append]
  simp only [placed, hlength, List.getElem?_append_right, Nat.le_refl, Nat.sub_self,
    List.getElem?_cons_zero]

theorem placed_getElem?_nil :
    (placed config optarg nextchar done skipped recent []).argv[
      (placed config optarg nextchar done skipped recent []).optind]? = none := by
  rw [List.getElem?_eq_none_iff]
  simp only [placed, List.length_append, List.length_nil]
  omega

theorem placed_optind_eq_iff :
    (placed config optarg nextchar done skipped recent rest).optind =
      (placed config optarg nextchar done skipped recent rest).argv.length ↔ rest = [] := by
  rw [← List.length_eq_zero_iff]
  simp only [placed, List.length_append]
  omega

theorem placed_drop :
    (placed config optarg nextchar done skipped recent rest).argv.drop
      (placed config optarg nextchar done skipped recent rest).optind = rest := by
  simp only [placed]
  rw [← List.length_append, ← List.length_append, List.drop_left]

theorem placed_append (next : List CString) :
    placed config optarg nextchar done skipped (recent ++ next) rest =
      { placed config optarg nextchar done skipped recent (next ++ rest) with
        optind := done.length + skipped.length + recent.length + next.length } := by
  simp only [placed, List.append_assoc, List.length_append, Nat.add_assoc]

theorem rational_placed :
    (placed config optarg nextchar done skipped recent rest).rational =
      placed config optarg nextchar done skipped recent rest := by
  have hlast : min (done.length + skipped.length)
      (done.length + skipped.length + recent.length) = done.length + skipped.length := by omega
  have hfirst : min done.length (done.length + skipped.length + recent.length) = done.length := by
    omega
  simp only [State.rational, placed, hlast, hfirst]

/-- The options processed since then come in front of the skipped operands. -/
theorem exchange_placed :
    (placed config optarg nextchar done skipped recent rest).exchange =
      some (placed config optarg nextchar (done ++ recent) skipped [] rest) := by
  have hexchange := exchange_append done skipped recent rest
  have hfirst : done.length + (done.length + skipped.length + recent.length -
      (done.length + skipped.length)) = done.length + recent.length := by omega
  have hlast : done.length + skipped.length + recent.length =
      done.length + recent.length + skipped.length := by omega
  simp only [State.exchange, placed, hexchange, Option.map_some, hfirst, List.length_append,
    List.append_nil, List.length_nil, Nat.add_zero]
  rw [hlast]

theorem skip_eq (rest : List CString) (optind : ℕ) :
    skip rest optind = optind + (rest.takeWhile nonoption).length := by
  induction rest generalizing optind with
  | nil => rfl
  | cons element rest ih =>
    rw [skip, List.takeWhile_cons]
    split_ifs
    · rw [ih, List.length_cons]
      omega
    · rfl

theorem skip_placed :
    ({ placed config optarg nextchar done skipped [] rest with
        optind := skip rest (done.length + skipped.length)
        last_nonopt := skip rest (done.length + skipped.length) } : State) =
      placed config optarg nextchar done (skipped ++ rest.takeWhile nonoption) []
        (rest.dropWhile nonoption) := by
  simp only [placed, skip_eq, List.append_assoc, List.nil_append, List.takeWhile_append_dropWhile,
    List.length_append, List.length_nil, Nat.add_zero, Nat.add_assoc]

/-- Under `PERMUTE` the calls skip the operands that come next. -/
theorem permute_placed (hordering : config.ordering = .permute) :
    (placed config optarg nextchar done skipped recent rest).permute =
      some (placed config optarg nextchar (done ++ recent)
        (skipped ++ rest.takeWhile nonoption) [] (rest.dropWhile nonoption)) := by
  have hmoved (state : State) (last : ℕ)
      (hstate : state = { placed config optarg nextchar (done ++ recent) skipped [] rest with
        last_nonopt := last }) :
      ({ state with
        optind := skip (state.argv.drop state.optind) state.optind
        last_nonopt := skip (state.argv.drop state.optind) state.optind } : State) =
          placed config optarg nextchar (done ++ recent) (skipped ++ rest.takeWhile nonoption) []
            (rest.dropWhile nonoption) := by
    rw [hstate, ← skip_placed]
    simp only [placed_drop]
    rfl
  have hguard : (placed config optarg nextchar done skipped recent rest).ordering = .permute :=
    hordering
  rw [State.permute, if_pos hguard]
  split_ifs with hboth hlast
  · rw [exchange_placed, Option.map_some, hmoved _ _ rfl]
  · obtain rfl : skipped = [] := by
      rw [← List.length_eq_zero_iff]
      simp only [placed] at hboth hlast
      omega
    refine congrArg some (hmoved _ done.length ?_)
    simp only [placed, List.append_nil, List.length_append, List.length_nil, Nat.add_zero]
  · obtain rfl : recent = [] := by
      rw [← List.length_eq_zero_iff]
      simp only [placed] at hlast
      omega
    rw [List.append_nil] at hmoved ⊢
    exact congrArg some (hmoved _ (done.length + skipped.length) rfl)

theorem permute_placed_of_ne (hordering : config.ordering ≠ .permute) :
    (placed config optarg nextchar done skipped recent rest).permute =
      some (placed config optarg nextchar done skipped recent rest) :=
  if_neg hordering

/-- Behind the special element everything is an operand. -/
theorem terminator_placed {element : CString} (helement : element.chars = [ascii '-', ascii '-']) :
    (placed config optarg nextchar done skipped recent (element :: rest)).terminator =
      some (placed config optarg nextchar (done ++ (recent ++ [element])) (skipped ++ rest)
        [] []) := by
  have hmore : (placed config optarg nextchar done skipped recent (element :: rest)).optind ≠
      (placed config optarg nextchar done skipped recent (element :: rest)).argv.length := by
    rw [Ne, placed_optind_eq_iff]
    exact List.cons_ne_nil element rest
  have hend (state : State) (last : ℕ)
      (hstate : state =
        { placed config optarg nextchar (done ++ (recent ++ [element])) skipped [] rest with
          last_nonopt := last }) :
      ({ state with last_nonopt := state.argv.length, optind := state.argv.length } : State) =
        placed config optarg nextchar (done ++ (recent ++ [element])) (skipped ++ rest) [] [] := by
    rw [hstate]
    simp only [placed, List.append_assoc, List.append_nil, List.length_append, List.length_nil,
      Nat.add_zero, Nat.add_assoc]
  have hpast := @placed_append config optarg nextchar done skipped recent rest [element]
  rw [State.terminator, if_neg hmore, placed_getElem?, Option.bind_some, if_pos helement]
  simp only [List.length_singleton, List.singleton_append] at hpast
  have hoptind : (placed config optarg nextchar done skipped recent (element :: rest)).optind =
    done.length + skipped.length + recent.length := rfl
  simp only [hoptind, ← hpast]
  split_ifs with hboth hsame
  · rw [exchange_placed, Option.map_some, hend _ _ rfl]
  · obtain rfl : skipped = [] := by
      rw [← List.length_eq_zero_iff]
      simp only [placed] at hsame
      omega
    refine congrArg some (hend _ done.length ?_)
    simp only [placed, List.append_nil, List.length_append, List.length_nil, List.length_cons,
      Nat.add_zero, Nat.zero_add, Nat.add_assoc, List.append_assoc, List.cons_append,
      List.nil_append]
  · -- the special element itself has been processed since then
    simp only [placed] at hboth hsame
    omega

theorem terminator_placed_of_ne {element : CString}
    (helement : element.chars ≠ [ascii '-', ascii '-']) :
    (placed config optarg nextchar done skipped recent (element :: rest)).terminator =
      some (placed config optarg nextchar done skipped recent (element :: rest)) := by
  have hmore : (placed config optarg nextchar done skipped recent (element :: rest)).optind ≠
      (placed config optarg nextchar done skipped recent (element :: rest)).argv.length := by
    rw [Ne, placed_optind_eq_iff]
    exact List.cons_ne_nil element rest
  rw [State.terminator, if_neg hmore, placed_getElem?, Option.bind_some, if_neg helement]

theorem terminator_placed_nil :
    (placed config optarg nextchar done skipped recent []).terminator =
      some (placed config optarg nextchar done skipped recent []) := by
  rw [State.terminator, if_pos ((placed_optind_eq_iff config).mpr rfl)]

end Places

/-! ## One call in an element -/

theorem my_index_head {str temp : List Byte} {chr : Byte} (hindex : my_index str chr = some temp) :
    temp.getD 0 0 = chr := by
  induction str with
  | nil => cases hindex
  | cons first rest ih =>
    rw [my_index] at hindex
    split_ifs at hindex with hfirst
    · cases hindex
      exact hfirst
    · exact ih hindex

/-- The call has this event, and leaves the element to the next call or goes past it. -/
def Lands (config : Config) (done skipped recent : List CString) (element : CString)
    (following : List CString) (more : List Byte) (result : Option (Reply × State)) :
    Event × Advance → Prop
  | ((reply, optarg), .within) =>
    result = some (reply,
      placed config optarg (some more) done skipped recent (element :: following))
  | ((reply, optarg), .beyond taken) =>
    ∃ nextchar, (nextchar = none ∨ nextchar = some []) ∧
      result = some (reply, placed config optarg nextchar done skipped
        (recent ++ element :: following.take taken) (following.drop taken))

section Element

variable (config : Config) {done : List CString} (skipped recent : List CString)
  {name : CString} (element : CString) (following : List CString)

theorem program_placed (optarg nextchar : Option (List Byte)) (rest : List CString)
    (hname : done.head? = some name) :
    (placed config optarg nextchar done skipped recent rest).program = name.chars := by
  simp only [State.program, placed, List.append_assoc, List.head?_append, hname, Option.some_or,
    Option.map_some, Option.getD_some]

theorem past_placed (optarg nextchar optarg' nextchar' : Option (List Byte)) :
    ({ placed config optarg nextchar done skipped recent (element :: following) with
        optarg := optarg'
        nextchar := nextchar'
        optind :=
          (placed config optarg nextchar done skipped recent (element :: following)).optind + 1 } :
      State) = placed config optarg' nextchar' done skipped (recent ++ [element]) following := by
  simp only [placed, List.append_assoc, List.singleton_append, List.length_append,
    List.length_singleton, Nat.add_assoc]

theorem option_lands_of_more {optstring : List Byte} (hwithoutW : NoPrefixW optstring) (c : Byte)
    {more : List Byte} (hmore : more ≠ []) (hname : done.head? = some name) :
    Lands config done skipped recent element following more
      (config.option optstring c more
        (placed config none (some more) done skipped recent (element :: following)))
      (shortEvent config name.chars optstring c more following) := by
  have hprogram :=
    program_placed config skipped recent none (some more) (element :: following) hname
  have hargument : ∃ nextchar, (nextchar = none ∨ nextchar = some ([] : List Byte)) ∧
      (some ({ code := promote c }, ({
        placed config none (some more) done skipped recent (element :: following) with
        optarg := some more
        nextchar := none
        optind := (placed config none (some more) done skipped recent
          (element :: following)).optind + 1 } : State)) : Option (Reply × State)) =
        some ({ code := promote c }, placed config (some more) nextchar done skipped
          (recent ++ element :: following.take 0) (following.drop 0)) :=
    ⟨none, Or.inl rfl, by rw [past_placed]; rfl⟩
  unfold shortEvent Config.option letter
  cases hindex : my_index optstring c with
  | none => simp only [hmore, if_false, hprogram, Lands]
  | some temp =>
    have hhead := my_index_head hindex
    have hnotw : ¬ (temp.getD 0 0 = ascii 'W' ∧ temp.getD 1 0 = ascii ';') := by
      rintro ⟨hw, hsemicolon⟩
      rw [hhead] at hw
      exact hwithoutW temp (hw ▸ hindex) hsemicolon
    by_cases hcolon : c = ascii ':'
    · simp only [hcolon, if_true, hmore, if_false, Lands, ← hprogram]
    · simp only [hcolon, if_false, hnotw, hmore, ne_eq, not_false_eq_true, if_true]
      by_cases hone : temp.getD 1 0 = ascii ':'
      · by_cases htwo : temp.getD 2 0 = ascii ':'
        · simpa only [hone, htwo, if_true, Lands] using hargument
        · simpa only [hone, htwo, if_true, if_false, Lands] using hargument
      · simp only [hone, if_false, Lands]

theorem option_lands_of_last {optstring : List Byte} (hwithoutW : NoPrefixW optstring) (c : Byte)
    (hname : done.head? = some name) :
    Lands config done skipped recent element following []
      (config.option optstring c []
        (placed config none (some []) done skipped (recent ++ [element]) following))
      (shortEvent config name.chars optstring c [] following) := by
  have hprogram :=
    program_placed config skipped (recent ++ [element]) none (some []) following hname
  unfold shortEvent Config.option letter
  cases hindex : my_index optstring c with
  | none =>
    simp only [if_true, hprogram]
    exact ⟨some [], Or.inr rfl, rfl⟩
  | some temp =>
    have hhead := my_index_head hindex
    have hnotw : ¬ (temp.getD 0 0 = ascii 'W' ∧ temp.getD 1 0 = ascii ';') := by
      rintro ⟨hw, hsemicolon⟩
      rw [hhead] at hw
      exact hwithoutW temp (hw ▸ hindex) hsemicolon
    by_cases hcolon : c = ascii ':'
    · simp only [hcolon, if_true, hprogram]
      exact ⟨some [], Or.inr rfl, rfl⟩
    · simp only [hcolon, if_false, hnotw, if_true, ne_eq, not_true_eq_false]
      by_cases hone : temp.getD 1 0 = ascii ':'
      · by_cases htwo : temp.getD 2 0 = ascii ':'
        · simp only [hone, htwo, if_true]
          exact ⟨none, Or.inl rfl, rfl⟩
        · simp only [hone, htwo, if_true, if_false]
          cases following with
          | nil =>
            rw [if_pos ((placed_optind_eq_iff config).mpr rfl), hprogram]
            exact ⟨none, Or.inl rfl, rfl⟩
          | cons argument rest =>
            rw [if_neg (by rw [placed_optind_eq_iff]; exact List.cons_ne_nil argument rest),
              placed_getElem?, Option.map_some]
            refine ⟨none, Or.inl rfl, ?_⟩
            rw [past_placed, List.append_assoc]
            rfl
      · simp only [hone, if_false]
        exact ⟨some [], Or.inr rfl, rfl⟩

theorem short_lands {optstring : List Byte} (hwithoutW : NoPrefixW optstring) (c : Byte)
    (more : List Byte) (nextchar : Option (List Byte)) (hname : done.head? = some name) :
    Lands config done skipped recent element following more
      (config.short optstring c more
        (placed config none nextchar done skipped recent (element :: following)))
      (shortEvent config name.chars optstring c more following) := by
  by_cases hmore : more = []
  · subst hmore
    have hstate := @past_placed config done skipped recent element following none nextchar none
      (some [])
    rw [Config.short, if_pos rfl]
    exact hstate ▸ option_lands_of_last config skipped recent element following hwithoutW c hname
  · rw [Config.short, if_neg hmore]
    exact option_lands_of_more config skipped recent element following hwithoutW c hmore hname

theorem accept_lands (optstring argument more : List Byte) (option : LongOption) (index : ℕ)
    (nextchar : Option (List Byte)) (hname : done.head? = some name) :
    Lands config done skipped recent element following more
      (some (config.accept optstring argument element option index
        (placed config none nextchar done skipped (recent ++ [element]) following)))
      ((acceptEvent config name.chars optstring argument element option index following).1,
        .beyond (acceptEvent config name.chars optstring argument element option index
          following).2) := by
  have hprogram := program_placed config skipped (recent ++ [element]) none nextchar following hname
  unfold acceptEvent Config.accept
  by_cases hargument : argument = []
  · simp only [hargument, ne_eq, not_true_eq_false, if_false]
    by_cases hrequired : option.has_arg = 1
    · simp only [hrequired, if_true]
      cases following with
      | nil =>
        rw [placed_getElem?_nil, hprogram]
        exact ⟨some [], Or.inr rfl, rfl⟩
      | cons next rest =>
        have hpast := @past_placed config done skipped (recent ++ [element]) next rest none nextchar
          (some next.chars) (some [])
        rw [List.append_assoc] at hpast
        rw [placed_getElem?]
        exact ⟨some [], Or.inr rfl,
          congrArg (fun state ↦ some (option.reply index, state)) hpast⟩
    · simp only [hrequired, if_false]
      exact ⟨some [], Or.inr rfl, rfl⟩
  · simp only [hargument, ne_eq, not_false_eq_true, if_true]
    by_cases htaken : option.has_arg = 0
    · simp only [htaken, not_true_eq_false, if_false, hprogram]
      exact ⟨some [], Or.inr rfl, rfl⟩
    · simp only [htaken, not_false_eq_true, if_true]
      exact ⟨some [], Or.inr rfl, rfl⟩

theorem long_lands (optstring text more : List Byte) (longopts : List LongOption)
    (nextchar : Option (List Byte)) (hname : done.head? = some name) :
    match longEvent config name.chars optstring text longopts element following with
    | some (event, taken) =>
      Lands config done skipped recent element following more
        (config.long optstring text longopts element
          (placed config none nextchar done skipped recent (element :: following)))
        (event, .beyond taken)
    | none =>
      config.long optstring text longopts element
        (placed config none nextchar done skipped recent (element :: following)) = none := by
  have hprogram := program_placed config skipped recent none nextchar (element :: following) hname
  have hresolution := resolution_search config.long_only (text.takeWhile (· ≠ ascii '=')) longopts 0
  have hpast (optarg' nextchar' : Option (List Byte)) :=
    @past_placed config done skipped recent element following none nextchar optarg' nextchar'
  unfold longEvent Config.long
  cases hresolve : resolve config.long_only (text.takeWhile (· ≠ ascii '=')) longopts.zipIdx with
  | ambiguous =>
    rw [hresolve, resolution_eq_ambiguous_iff] at hresolution
    simp only [hresolution, and_self, if_true, hprogram]
    exact ⟨some [], Or.inr rfl, congrArg (fun state ↦ some (_, state)) (hpast none (some []))⟩
  | option option index =>
    rw [hresolve, resolution_eq_option_iff] at hresolution
    obtain ⟨hunique, hfound⟩ := hresolution
    simp only [hunique, if_false, hfound]
    exact hpast none nextchar ▸ accept_lands config skipped recent element following optstring
      _ more option index nextchar hname
  | unknown =>
    rw [hresolve, resolution_eq_unknown_iff] at hresolution
    obtain ⟨hunique, hfound⟩ := hresolution
    simp only [hunique, if_false, hfound, hprogram]
    split_ifs
    · exact ⟨some [], Or.inr rfl, congrArg (fun state ↦ some (_, state)) (hpast none (some []))⟩
    · rfl

/-- One call in an element has the event of the character it decodes. -/
theorem decode_lands {optstring : List Byte} (hwithoutW : NoPrefixW optstring) (c : Byte)
    (more : List Byte) (hname : done.head? = some name) :
    Lands config done skipped recent element following more
      (config.decode optstring
        (placed config none (some (c :: more)) done skipped recent (element :: following)))
      (event config name.chars optstring element c more following) := by
  have hshort := short_lands config skipped recent element following hwithoutW c more
    (some (c :: more)) hname
  unfold Config.decode event asLong
  cases hlongopts : config.longopts with
  | none => exact hshort
  | some longopts =>
    have hlong := long_lands config skipped recent element following optstring (c :: more) more
      longopts (some (c :: more)) hname
    have hnextchar : (placed config none (some (c :: more)) done skipped recent
      (element :: following)).nextchar = some (c :: more) := rfl
    simp only [hnextchar, placed_getElem?, Option.bind_some]
    split_ifs
    · cases hevent : longEvent config name.chars optstring (c :: more) longopts element
        following with
      | none =>
        rw [hevent] at hlong
        simp only [hlong]
        exact hshort
      | some result =>
        rw [hevent] at hlong
        obtain ⟨nextchar, hnext, hresult⟩ := hlong
        exact ⟨nextchar, hnext, by rw [hresult]⟩
    · exact hshort

end Element

end PiFunk.Getopt
