import VoiceRelay.Proofs.PrintedTimes
import VoiceRelay.Proofs.Utf8Text

/-!
# Times of clients asked of a program

The times are what some program prints, whatever it is. Here the programs of the host are asked: the one
that prints what it is given gives back every list, a program that only waits gives nothing, or a fault when it
waits too long, and a program that is not there gives a fault.

**Design.** A format is passed over part by part: `pass_append` for characters that print themselves and
`pass_word` for a word. `passes_row` is the induction over the rows that the arguments make, one row for each
pass.

**Results.**

- `printf_row`: `printf` with the format of a row prints one row for every two arguments.
- `run_printf`: the same for the program of the host, octet by octet.
- `ask_printf`, `ask_sleep`, `ask_nowhere`: what the times are, or why there are none.
-/

namespace VoiceRelay

namespace Shell

namespace Format

section Defs

/-- A format for lines of two words with a tab between them. -/
def row : Octets := "%s\t%s\n".toList

/-- The arguments for some rows. -/
def arguments (rows : List (Octets × Octets)) : List Octets := rows.flatMap fun p => [p.1, p.2]

/-- The lines for some rows. -/
def lines (rows : List (Octets × Octets)) : Octets := rows.flatMap fun p => p.1 ++ '\t' :: p.2 ++ ['\n']

end Defs

section Rows

variable {m : Manner}

/-- Characters of a format that are no marks print themselves. -/
theorem pass_append (n : Nat) (cs r : Octets) (args : List Octets)
    (h : ∀ c ∈ cs, c ≠ '\\' ∧ c ≠ '%') :
    pass m (n + cs.length) (cs ++ r) args = (pass m n r args).after cs := by
  induction cs with
  | nil => rfl
  | cons c cs ih =>
    obtain ⟨hb, hp⟩ := h c List.mem_cons_self
    have hrest := ih fun d hd => h d (List.mem_cons_of_mem c hd)
    rw [List.length_cons, ← Nat.add_assoc, List.cons_append, pass, hrest]
    · rfl
    · exact hb
    · exact fun _ hc => absurd hc hp
    · exact hp

theorem directive?_word (r : Octets) : directive? m ('s' :: r) = some (⟨[], .none, .none, 's'⟩, r) := by
  cases m <;> simp [directive?, isFlag, size, isLength, isSound, Decimal.isDigit]

/-- A directive for a word prints the next argument, or nothing if none is left. -/
theorem pass_word (n : Nat) (r : Octets) (args : List Octets) :
    pass m (n + 1) ('%' :: 's' :: r) args = (pass m n r args.tail).after (args.headD []) := by
  rw [pass, directive?_word]
  · simp [apply, resolve, convert, Layout.put, isSoundNumber, greatestSize, Pass.after]
  · simp

theorem pass_row (args : List Octets) : pass m (row.length + 1) row args =
    ⟨args.headD [] ++ '\t' :: args.tail.headD [] ++ ['\n'], args.tail.tail, .complete, true⟩ := by
  have htab (r : Octets) (args : List Octets) (n : Nat) :
      pass m (n + 1) ('\t' :: r) args = (pass m n r args).after ['\t'] :=
    pass_append n ['\t'] r args (by simp)
  have hend (args : List Octets) : pass m 4 ['\n'] args = (pass m 3 [] args).after ['\n'] :=
    pass_append 3 ['\n'] [] args (by simp)
  have hrow : row = '%' :: 's' :: '\t' :: '%' :: 's' :: ['\n'] := rfl
  rw [hrow]
  simp only [List.length_cons, List.length_nil]
  rw [pass_word, htab, pass_word, hend]
  simp [pass, Pass.after]

/-- **As many rows are printed as there are arguments for.** -/
theorem passes_row {rows : List (Octets × Octets)} (hrows : rows ≠ []) {n : Nat}
    (hn : rows.length ≤ n) : passes m row n (arguments rows) = ⟨lines rows, 0⟩ := by
  induction rows generalizing n with
  | nil => exact absurd rfl hrows
  | cons p rows ih =>
    cases n with
    | zero => exact absurd hn (Nat.not_succ_le_zero _)
    | succ n =>
      have hargs : arguments (p :: rows) = p.1 :: p.2 :: arguments rows := rfl
      have hlines : lines (p :: rows) = p.1 ++ '\t' :: p.2 ++ ['\n'] ++ lines rows := rfl
      rw [passes, pass_row, hargs, hlines]
      by_cases hlast : rows = []
      · subst hlast
        simp [arguments, lines]
      · have hmore : (arguments rows).isEmpty = false := by
          obtain ⟨q, rest, rfl⟩ := List.exists_cons_of_ne_nil hlast
          rfl
        have hless : (arguments rows).length ≠ (arguments rows).length + 1 + 1 := by omega
        simp [hmore, hless, ih hlast (Nat.le_of_succ_le_succ hn)]

end Rows

end Format

section Texts

/-- A text of ASCII is the same octet by octet. -/
theorem ofText_ascii {cs : List Char} (h : ∀ c ∈ cs, c.toNat < 0x80) : ofText (.ofList cs) = cs := by
  induction cs with
  | nil => rfl
  | cons c cs ih =>
    have hc : c.val.toNat ≤ 0x7f := Nat.le_of_lt_succ (h c List.mem_cons_self)
    have hone : String.utf8EncodeChar c = [c.val.toNat.toUInt8] := by
      unfold String.utf8EncodeChar
      exact if_pos hc
    have hback : Char.ofNat c.val.toNat.toUInt8.toNat = c := by
      have : c.val.toNat.toUInt8.toNat = c.val.toNat := Nat.mod_eq_of_lt (by omega)
      rw [this]
      exact Char.ofNat_toNat c
    have hrest := ih fun d hd => h d (List.mem_cons_of_mem c hd)
    simp only [ofText, String.toList_ofList, Utf8.encode, List.flatMap_cons, List.map_append] at hrest ⊢
    rw [hrest, hone, List.map_singleton, hback]
    rfl

theorem slash_octet {c : Char} {b : UInt8} (hb : b ∈ String.utf8EncodeChar c)
    (h : Char.ofNat b.toNat = '/') : c = '/' := by
  have hsmall : b.toNat < 0x80 := by
    have hvalid : b.toNat.isValidChar := Or.inl (Nat.lt_trans b.toNat_lt (by decide))
    rw [← Utf8.toNat_charOfNat hvalid, h]
    decide
  exact (Utf8.mem_utf8EncodeChar hb hsmall).trans h

theorem mem_ofText {name : String} : '/' ∈ ofText name ↔ '/' ∈ name.toList := by
  unfold ofText Utf8.encode
  rw [List.mem_map]
  constructor
  · rintro ⟨b, hb, heq⟩
    obtain ⟨c, hc, hmem⟩ := List.mem_flatMap.1 hb
    rwa [← slash_octet hmem heq]
  · exact fun h => ⟨47, List.mem_flatMap.2 ⟨'/', h, by decide⟩, rfl⟩

theorem head?_ofText {name : String} (h : (ofText name).head? = some '/') :
    name.toList.head? = some '/' := by
  unfold ofText Utf8.encode at h
  rcases hname : name.toList with _ | ⟨c, cs⟩
  · rw [hname] at h
    cases h
  · have hne : String.utf8EncodeChar c ≠ [] := by
      rw [← List.length_pos_iff, String.length_utf8EncodeChar]
      exact Char.utf8Size_pos c
    obtain ⟨b, bs, hb⟩ := List.exists_cons_of_ne_nil hne
    rw [hname, List.flatMap_cons, hb] at h
    exact congrArg some (slash_octet (hb ▸ List.mem_cons_self) (Option.some.inj h))

theorem ofText_digits (n : Nat) : ofText (.ofList (Decimal.digits n)) = Decimal.digits n :=
  ofText_ascii fun c hc => by
    have hdigit := Decimal.digits_isDigit n c hc
    simp only [Decimal.isDigit, Bool.and_eq_true, decide_eq_true_eq, Char.le_def, UInt32.le_iff_toNat_le]
      at hdigit
    have hnine : c.toNat ≤ 57 := hdigit.2
    omega

/-- What `printf` prints of rows. -/
theorem printf_row (m : Manner) {rows : List (Octets × Octets)} (hrows : rows ≠ []) :
    printf m (Format.row :: Format.arguments rows) = ⟨Format.lines rows, 0⟩ := by
  have hlength : rows.length ≤ (Format.arguments rows).length + 1 := by
    simp [Format.arguments, List.length_flatMap]
    omega
  have hprintf : printf m (Format.row :: Format.arguments rows) =
      Format.passes m Format.row ((Format.arguments rows).length + 1) (Format.arguments rows) := by
    cases m <;> rfl
  rw [hprintf, Format.passes_row hrows hlength]

end Texts

namespace Run

section Programs

/-- What a program has written at once is what is shown of it. -/
theorem shown_emit (cs : Octets) (status : Nat) :
    shown (((Machine.begun [] []).emit Machine.outChannel cs).ended status, .on) = some cs := by
  by_cases hempty : cs = []
  · subst hempty
    simp [shown, Machine.emit, Machine.ended, Machine.begun, Machine.held, Machine.piecesOf, timeLimit,
      Machine.textOf]
  · have hpieces : ((Machine.begun [] []).emit Machine.outChannel cs).piecesOf Machine.shown =
        [⟨0, 0, cs⟩] := Machine.piecesOf_emit _ hempty rfl
    have hheld : ((Machine.begun [] []).emit Machine.outChannel cs).held = 0 := by
      simp [Machine.emit, Machine.begun, Machine.held, Machine.outChannel, hempty]
    have hended (m : Machine) : (m.ended status).held = m.held ∧
        (m.ended status).piecesOf Machine.shown = m.piecesOf Machine.shown := ⟨rfl, rfl⟩
    simp [shown, hended, hpieces, hheld, timeLimit, Machine.textOf]

theorem program_printf (exec : Exec) (n : Nat) (args : List Octets) (m : Machine)
    (hname : programName? m "printf".toList = some "printf") :
    program exec (n + 1) "printf".toList args m =
      some ((m.emit Machine.outChannel (printf .program args).out).ended (printf .program args).status,
        .on) := by
  unfold program
  simp only [hname, Option.getD_some]

theorem program_sleep (exec : Exec) (n : Nat) (args : List Octets) (m : Machine)
    (hname : programName? m "sleep".toList = some "sleep") :
    program exec (n + 1) "sleep".toList args m = some (sleep args m) := by
  unfold program
  simp only [hname, Option.getD_some]

theorem program_nowhere (exec : Exec) (n : Nat) {name : Octets} (args : List Octets) (m : Machine)
    (hname : programName? m name = none) : program exec (n + 1) name args m = none := by
  unfold program
  simp only [hname, Option.getD_none]
  rfl

theorem decimal?_digits (n : Nat) : Tools.decimal? (Decimal.digits n) = some (Int.ofNat n, 0) := by
  have hmem (c : Char) (hc : Decimal.isDigit c = false) : c ∉ Decimal.digits n :=
    ClientTimes.not_mem_digits hc n
  have hsign : Numeral.sign (Decimal.digits n) = (false, Decimal.digits n) := by
    unfold Numeral.sign
    split
    · next heq => exact absurd (heq ▸ List.mem_cons_self) (hmem '-' (by decide))
    · next heq => exact absurd (heq ▸ List.mem_cons_self) (hmem '+' (by decide))
    · rfl
  have hpieces : Text.pieces (· == '.') (Decimal.digits n) = [Decimal.digits n] := by
    have hjoin : Decimal.digits n = Text.join ['.'] [Decimal.digits n] := rfl
    conv => lhs; rw [hjoin]
    refine pieces_join rfl (by simp) fun w hw c hc => ?_
    rw [List.mem_singleton.1 hw] at hc
    simpa using ne_of_mem_of_not_mem hc (hmem '.' (by decide))
  have hall : (Decimal.digits n).all Decimal.isDigit = true :=
    List.all_eq_true.2 (Decimal.digits_isDigit n)
  unfold Tools.decimal?
  rw [hsign]
  simp only [hpieces]
  simp [hall, Decimal.digits_ne_nil, Decimal.value_digits]

theorem duration?_digits (n : Nat) : duration? (Decimal.digits n) = some (n * 1000) := by
  have hmem (c : Char) (hc : Decimal.isDigit c = false) : c ∉ Decimal.digits n :=
    ClientTimes.not_mem_digits hc n
  have hnever : ¬ ("infinity".toList = Decimal.digits n ∨ "inf".toList = Decimal.digits n) := by
    rintro (heq | heq)
    all_goals exact hmem 'i' (by decide) (heq ▸ by decide)
  unfold duration?
  extract_lets unit digits
  have hunit : unit = 0 := by
    simp only [unit]
    split
    · next heq => exact absurd (List.mem_of_getLast? heq) (hmem 's' (by decide))
    · next heq => exact absurd (List.mem_of_getLast? heq) (hmem 'm' (by decide))
    · next heq => exact absurd (List.mem_of_getLast? heq) (hmem 'h' (by decide))
    · next heq => exact absurd (List.mem_of_getLast? heq) (hmem 'd' (by decide))
    · rfl
  have hdigits : digits = Decimal.digits n := if_pos hunit
  rw [if_neg hnever, hdigits, decimal?_digits, hunit]
  simp [Decimal.tenTo]

theorem sleep_digits (n : Nat) (m : Machine) : sleep [Decimal.digits n] m =
    ({ m with clock := m.clock + n * 1000 }.ended 0,
      if timeLimit ≤ m.clock + n * 1000 then .spent else .on) := by
  simp [sleep, duration?_digits]

end Programs

end Run

end Shell

namespace Program

section Printing

/-- The arguments with which rows of texts are printed. -/
def arguments (rows : List (String × String)) : List String :=
  "%s\t%s\n" :: rows.flatMap fun p => [p.1, p.2]

theorem toOctets_lines (rows : List (String × String)) :
    Shell.toOctets (Shell.Format.lines (rows.map fun p => (Shell.ofText p.1, Shell.ofText p.2))) =
      Utf8.encode (rows.flatMap fun p => p.1.toList ++ '\t' :: p.2.toList ++ ['\n']) := by
  induction rows with
  | nil => rfl
  | cons p rows ih =>
    have happend (a b : Shell.Octets) : Shell.toOctets (a ++ b) = Shell.toOctets a ++ Shell.toOctets b :=
      List.map_append
    have hencode (a b : List Char) : Utf8.encode (a ++ b) = Utf8.encode a ++ Utf8.encode b :=
      List.flatMap_append
    have hlines : Shell.Format.lines ((p :: rows).map fun p => (Shell.ofText p.1, Shell.ofText p.2)) =
        Shell.ofText p.1 ++ (['\t'] ++ Shell.ofText p.2) ++ ['\n'] ++
          Shell.Format.lines (rows.map fun p => (Shell.ofText p.1, Shell.ofText p.2)) := rfl
    have hrows : ((p :: rows).flatMap fun p => p.1.toList ++ '\t' :: p.2.toList ++ ['\n']) =
        p.1.toList ++ (['\t'] ++ p.2.toList) ++ ['\n'] ++
          rows.flatMap fun p => p.1.toList ++ '\t' :: p.2.toList ++ ['\n'] := rfl
    rw [hlines, hrows]
    simp only [happend, hencode, Shell.toOctets_ofText, ih]
    rfl

/-- **What the program `printf` prints of rows**, octet by octet. -/
theorem run_printf {rows : List (String × String)} (hrows : rows ≠ [])
    (hzero : ∀ p ∈ rows, '\x00' ∉ p.1.toList ∧ '\x00' ∉ p.2.toList) :
    run "printf" (arguments rows) = .finished (Utf8.encode
      (rows.flatMap fun p => p.1.toList ++ '\t' :: p.2.toList ++ ['\n'])) := by
  let octets : List (Shell.Octets × Shell.Octets) := rows.map fun p => (Shell.ofText p.1, Shell.ofText p.2)
  have hall : (("printf" :: arguments rows).any fun a => a.toList.contains '\x00') = false := by
    simp only [arguments, List.any_cons, List.any_flatMap, List.any_nil, Bool.or_false]
    simpa [forall_and] using hzero
  have hargs : (arguments rows).map Shell.ofText = Shell.Format.row :: Shell.Format.arguments octets := by
    simp [arguments, octets, Shell.Format.arguments, List.map_flatMap, List.flatMap_map]
    rfl
  have hname : Shell.Run.programName? (.begun [] []) "printf".toList = some "printf" := rfl
  have hprinted : Shell.printf .program (Shell.Format.row :: Shell.Format.arguments octets) =
      ⟨Shell.Format.lines octets, 0⟩ := Shell.printf_row .program (by simpa [octets] using hrows)
  have hstart : Shell.Run.start (Shell.ofText "printf") ((arguments rows).map Shell.ofText) =
      some (((Shell.Machine.begun [] []).emit Shell.Machine.outChannel
        (Shell.Format.lines octets)).ended 0, .on) := by
    rw [hargs]
    exact (Shell.Run.program_printf _ _ _ _ hname).trans (by rw [hprinted])
  have hlines : Shell.toOctets (Shell.Format.lines octets) = Utf8.encode
      (rows.flatMap fun p => p.1.toList ++ '\t' :: p.2.toList ++ ['\n']) := toOctets_lines rows
  simp only [run, hall, hstart, Shell.Run.shown_emit, hlines]
  rfl

end Printing

section Others

/-- **A program that waits prints nothing**, and one that waits for as long as the limit is not waited for. -/
theorem run_sleep (n : Nat) :
    run "sleep" [.ofList (Decimal.digits n)] = if n < 10 then .finished [] else .overlong := by
  have hzero : (["sleep", .ofList (Decimal.digits n)].any fun a => a.toList.contains '\x00') = false := by
    have hdigits : '\x00' ∉ Decimal.digits n := ClientTimes.not_mem_digits (by decide) n
    simpa using hdigits
  have hargs : [String.ofList (Decimal.digits n)].map Shell.ofText = [Decimal.digits n] := by
    rw [List.map_singleton, Shell.ofText_digits]
  have hname : Shell.Run.programName? (.begun [] []) "sleep".toList = some "sleep" := rfl
  have hstart : Shell.Run.start (Shell.ofText "sleep")
      ([String.ofList (Decimal.digits n)].map Shell.ofText) =
        some (Shell.Run.sleep [Decimal.digits n] (.begun [] [])) := by
    rw [hargs]
    exact Shell.Run.program_sleep _ _ _ _ hname
  have hspent : Shell.Run.timeLimit ≤ n * 1000 ↔ ¬ n < 10 := by
    unfold Shell.Run.timeLimit
    omega
  have hclock : (Shell.Machine.begun [] []).clock + n * 1000 = n * 1000 := Nat.zero_add _
  simp only [run, hzero, hstart, Shell.Run.sleep_digits, hclock, hspent]
  by_cases hn : n < 10
  · have hintime : ¬ Shell.Run.timeLimit ≤ n * 1000 := fun hle => hspent.1 hle hn
    simp [hn, Shell.Run.shown, Shell.Machine.held, Shell.Machine.ended, Shell.Machine.begun, hintime,
      Shell.Machine.piecesOf, Shell.Machine.textOf, Shell.toOctets]
  · simp [hn, Shell.Run.shown]

/-- **A path that does not begin at the root leads to no program.** -/
theorem run_nowhere {name : String} (args : List String) (hslash : '/' ∈ name.toList)
    (hroot : name.toList.head? ≠ some '/') : run name args = .unknown := by
  have hname : Shell.Run.programName? (.begun [] []) (Shell.ofText name) = none := by
    have hmem : '/' ∈ Shell.ofText name := Shell.mem_ofText.2 hslash
    have hhead : (Shell.ofText name).head? ≠ some '/' := fun heq => hroot (Shell.head?_ofText heq)
    simp [Shell.Run.programName?, hmem, hhead]
  have hstart : Shell.Run.start (Shell.ofText name) (args.map Shell.ofText) = none :=
    Shell.Run.program_nowhere _ _ _ _ hname
  unfold run
  split
  · rfl
  · rw [hstart]

end Others

end Program

namespace ClientTimes

section Asking

variable {s : TimesSettings}

/-- **What the program was given comes back.** -/
theorem ask_printf (hon : s.enabled = true) (hprogram : s.program = "printf") (es : List Entry)
    (hzero : ∀ e ∈ es, '\x00' ∉ e.time.name.toList)
    (harguments : s.arguments =
      Program.arguments (es.map fun e => (.ofList (Decimal.digits e.time.total), e.time.name))) :
    ask s Program.run = .ok ((es.map Entry.time).take s.limit) := by
  rw [ask, if_pos hon, hprogram, harguments]
  by_cases hnone : es = []
  · -- Without arguments the format is passed over once, and the line has no number.
    subst hnone
    have hrun : Program.run "printf" (Program.arguments []) = .finished [9, 10] := by decide +kernel
    have hnothing : parse (Utf8.decode [9, 10]) s.limit = [] :=
      List.filterMap_eq_nil_iff.2 fun line hline =>
        (by decide : ∀ line ∈ Text.pieces (· == '\n') (Utf8.decode [9, 10]), ofLine? line = none) line
          (List.mem_of_mem_take hline)
    rw [List.map_nil, List.map_nil, List.take_nil, hrun]
    exact congrArg Except.ok hnothing
  · have hdigits (e : Entry) : '\x00' ∉ Decimal.digits e.time.total := not_mem_digits (by decide) _
    rw [Program.run_printf (by simpa using hnone) (by simpa [hdigits] using hzero)]
    have houtput : ((es.map fun e => (String.ofList (Decimal.digits e.time.total), e.time.name)).flatMap
        fun p => p.1.toList ++ '\t' :: p.2.toList ++ ['\n']) =
          output (es.map fun e => ⟨.entry e, false⟩) true := by
      simp [output, List.flatMap_map, Printed.chars, Content.chars]
    simp only [houtput, Utf8.decode_encode, parse_output]
    rw [← List.map_take, ← List.map_take, List.filterMap_map]
    exact congrArg Except.ok (List.filterMap_eq_map' (f := fun e : Entry => e.time) ▸ rfl)

/-- **A program that only waits** gives no times, and a fault if it waits for as long as the limit. -/
theorem ask_sleep (hon : s.enabled = true) (hprogram : s.program = "sleep") {n : Nat}
    (harguments : s.arguments = [.ofList (Decimal.digits n)]) :
    ask s Program.run = if n < 10 then .ok [] else .error (.overlong "sleep") := by
  have hnothing : parse (Utf8.decode []) s.limit = [] :=
    List.filterMap_eq_nil_iff.2 fun line hline => by
      rw [List.mem_singleton.1 (List.mem_of_mem_take hline)]
      rfl
  rw [ask, if_pos hon, hprogram, harguments, Program.run_sleep]
  by_cases hn : n < 10
  · simp [hn, hnothing]
  · simp [hn]

/-- **A program that is not there** gives a fault with its name: one whose path does not begin at the root,
and one with the octet zero in its name. -/
theorem ask_nowhere (hon : s.enabled = true) (hname : '\x00' ∈ s.program.toList ∨
    '/' ∈ s.program.toList ∧ s.program.toList.head? ≠ some '/') :
    ask s Program.run = .error (.notStarted s.program) := by
  have hrun : Program.run s.program s.arguments = .unknown := by
    rcases hname with hzero | ⟨hslash, hroot⟩
    · exact Program.run_zero s.arguments (List.contains_iff_mem.2 hzero)
    · exact Program.run_nowhere s.arguments hslash hroot
  rw [ask, if_pos hon, hrun]

end Asking

end ClientTimes

end VoiceRelay
