import Chip8.CommandLine
import Chip8.Proofs.Tokens

/-! Arguments as a caller writes them, the path first and then each option with its number. They are taken
as they stand, so a run can be asked for with any path that is not an option and any numbers of 64 bits. -/
namespace Chip8

namespace Numeral
variable {limit n : Nat}

theorem value_le_append (front back : List Nat) : value 10 front ≤ value 10 (front ++ back) := by
  induction back generalizing front with
  | nil => simp
  | cons d rest ih =>
    have grown := value_append 10 front d
    rw [List.append_cons]
    exact Nat.le_trans (by omega) (ih (front ++ [d]))

/-- Digits are read to their number if it stays below the limit, since then it has been below it
all the way. -/
theorem readDigits_map (front back : List Nat) (digital : ∀ d ∈ back, d < 10)
    (below : value 10 (front ++ back) < limit) :
    readDigits limit (value 10 front) (back.map Nat.digitChar) = .ok (value 10 (front ++ back)) := by
  induction back generalizing front with
  | nil => rw [List.append_nil]; rfl
  | cons d rest ih =>
    have place : ∀ d < 10, d.digitChar.toNat - '0'.toNat = d := by decide
    obtain ⟨small, others⟩ := List.forall_mem_cons.mp digital
    rw [List.append_cons] at below ⊢
    have grown : value 10 front * 10 + d < limit := by
      rw [← value_append]
      exact Nat.lt_of_le_of_lt (value_le_append _ rest) below
    rw [List.map_cons, readDigits, if_pos (isDigit_digitChar d small), place d small]
    dsimp only
    rw [if_pos grown, ← value_append]
    exact ih _ others below

theorem readUnsigned_of_ne_plus {c : Char} (unsigned : c ≠ '+') (rest : List Char) :
    readUnsigned limit (c :: rest) = readDigits limit 0 (c :: rest) := by
  unfold readUnsigned
  split <;> simp_all

theorem readUnsigned_decimal (below : n < limit) :
    readUnsigned limit (decimal n).toList = .ok n := by
  have unsigned : ∀ d < 10, d.digitChar ≠ '+' := by decide
  have digital := digits_lt (by decide : 2 ≤ 10) n
  have number : value 10 ([] ++ digits 10 n) = n := value_digits 10 n
  have read : readDigits limit 0 ((digits 10 n).map Nat.digitChar) = .ok (value 10 ([] ++ digits 10 n)) :=
    readDigits_map [] (digits 10 n) digital (by rwa [number])
  rw [number] at read
  rw [decimal, String.toList_ofList]
  cases written : digits 10 n with
  | nil => exact absurd written (digits_ne_nil 10 n)
  | cons d rest =>
    have first : d ∈ digits 10 n := by
      rw [written]
      exact List.mem_cons_self
    rw [List.map_cons, readUnsigned_of_ne_plus (unsigned d (digital d first)), ← List.map_cons,
      ← written]
    exact read

/-- A number does not look like an option. -/
theorem head?_decimal (n : Nat) : (decimal n).toList.head? ≠ some '-' := by
  have undashed : ∀ d < 10, d.digitChar ≠ '-' := by decide
  intro dashed
  rw [decimal, String.toList_ofList] at dashed
  have each := forall_mem_digits (P := (· ≠ '-')) (by decide) undashed n
  exact each '-' (List.mem_of_head? dashed) rfl

end Numeral

namespace CommandLine
variable {scan : Scan} {program : Program} {name : OptionName} {argument : String}

theorem take_undashed (undashed : argument.toList.head? ≠ some '-') (reading : scan.plain = false) :
    scan.take program argument =
      match scan.pending with
      | some option =>
        .ok { scan with values := scan.values ++ [(option, argument)], pending := none }
      | none => scan.positional argument := by
  unfold Scan.take
  rw [if_neg (by simp [reading])]
  split
  · simp_all
  · simp_all
  · simp_all
  · rfl

theorem take_named (offered : name ∈ program.options) (reading : scan.plain = false) :
    scan.take program ("--" ++ name.long) = .ok (scan.note name none) := by
  rw [Scan.take, if_neg (by simp [reading])]
  cases program with
  | headless => cases name <;> rfl
  | interactive =>
    cases name with
    | steps => exact absurd offered (by decide)
    | hz | timers | seed => rfl

/-- The arguments that give options their numbers. -/
def written (settings : List (OptionName × Nat)) : List String :=
  settings.flatMap fun (name, n) => ["--" ++ name.long, Numeral.decimal n]

/-- The scan after arguments with these settings. -/
def Scan.set (scan : Scan) (settings : List (OptionName × Nat)) : Scan :=
  { scan with
    named := scan.named ++ settings.map (·.1)
    values := scan.values ++ settings.map fun (name, n) => (name, Numeral.decimal n) }

/-- Options with their numbers are noted in order, whatever has been taken before. -/
theorem foldlM_written {settings : List (OptionName × Nat)}
    (offered : ∀ setting ∈ settings, setting.1 ∈ program.options) (reading : scan.plain = false)
    (free : scan.pending = none) :
    (written settings).foldlM (Scan.take program) scan = .ok (scan.set settings) := by
  induction settings generalizing scan with
  | nil => simp [written, Scan.set, pure, Except.pure]
  | cons setting rest ih =>
    obtain ⟨known, others⟩ := List.forall_mem_cons.mp offered
    have valued : (scan.note setting.1 none).take program (Numeral.decimal setting.2) =
        .ok (scan.set [setting]) := by
      have noted : (scan.note setting.1 none).plain = false := reading
      rw [take_undashed (Numeral.head?_decimal setting.2) noted]
      simp [Scan.note, Scan.set, free]
    calc (written (setting :: rest)).foldlM (Scan.take program) scan
        = (do
            let scan ← (scan.note setting.1 none).take program (Numeral.decimal setting.2)
            (written rest).foldlM (Scan.take program) scan) := by
          have opened : written (setting :: rest) =
            ("--" ++ setting.1.long) :: Numeral.decimal setting.2 :: written rest := rfl
          rw [opened, List.foldlM_cons, take_named known reading]
          rfl
      _ = .ok ((scan.set [setting]).set rest) := by
          rw [valued]
          exact ih others reading free
      _ = .ok (scan.set (setting :: rest)) := by simp [Scan.set]

theorem number_decimal {n : Nat} (below : n < UInt64.size) : number (Numeral.decimal n) = .ok n := by
  rw [number, Numeral.readUnsigned_decimal below]
  rfl

theorem mode_perStep : mode "per-step" = .ok .perStep := by
  have lower : "per-step".toLower = "per-step" := by decide +kernel
  rw [mode, TimerMode.ofName, lower]
  rfl

/-- An option named at most once is read from its one value. -/
theorem read_once {α : Type} {text : String} {parse : String → Except BadValue α} {a : α}
    (values : scan.valuesOf program name = [text]) (once : scan.named.count name ≤ 1)
    (parsed : parse text = .ok a) : scan.read program name parse = .ok (some a) := by
  have single : ¬ 1 < scan.named.count name := by omega
  have all : [text].mapM (fun text => (parse text).mapError (UsageError.invalidValue name)) =
      .ok [a] := by
    rw [List.mapM_cons, parsed]
    rfl
  simp only [Scan.read, values, all, single, List.isEmpty_cons, Bool.false_eq_true, and_false,
    if_false]
  rfl

/-- A run without a screen and with a seed can be asked for with every path that is not an option, and
for every number of steps, every pace and every seed. -/
theorem options_written {path : String} (undashed : path.toList.head? ≠ some '-')
    (steps hz seed : UInt64) :
    options .headless
        (path :: written [(.steps, steps.toNat), (.hz, hz.toNat), (.seed, seed.toNat)]) =
      .ok { path, steps := steps.toNat, hz := hz.toNat, config := { seed := some seed } } := by
  let settings := [(OptionName.steps, steps.toNat), (.hz, hz.toNat), (.seed, seed.toNat)]
  let scan := Scan.set { path := some path } settings
  have positional : Scan.take .headless {} path = .ok { path := some path } :=
    take_undashed undashed rfl
  have offered : ∀ name : OptionName, name ∈ Program.headless.options := by rintro ⟨⟩ <;> decide
  have taken : (written settings).foldlM (Scan.take .headless) { path := some path } = .ok scan :=
    foldlM_written (fun _ _ => offered _) rfl rfl
  have stepsRead : scan.read .headless .steps number = .ok (some steps.toNat) :=
    read_once rfl Nat.le.refl (number_decimal steps.toNat_lt_size)
  have hzRead : scan.read .headless .hz number = .ok (some hz.toNat) :=
    read_once rfl Nat.le.refl (number_decimal hz.toNat_lt_size)
  have timersRead : scan.read .headless .timers mode = .ok (some .perStep) :=
    read_once rfl (Nat.zero_le 1) mode_perStep
  have seedRead : scan.read .headless .seed number = .ok (some seed.toNat) :=
    read_once rfl Nat.le.refl (number_decimal seed.toNat_lt_size)
  have finished : scan.finish .headless =
      .ok { path, steps := steps.toNat, hz := hz.toNat, config := { seed := some seed } } := by
    rw [Scan.finish, stepsRead, hzRead, timersRead, seedRead]
    exact congrArg (fun seed => Except.ok (Options.mk path steps.toNat hz.toNat ⟨.perStep, some seed⟩))
      UInt64.ofNat_toNat
  calc options .headless (path :: written settings)
      = (do
          let scan ← (written settings).foldlM (Scan.take .headless) { path := some path }
          (scan.finish .headless).mapError .usage) := by
        rw [options, List.foldlM_cons, positional]
        rfl
    _ = .ok { path, steps := steps.toNat, hz := hz.toNat, config := { seed := some seed } } := by
        rw [taken]
        exact congrArg (Except.mapError Halt.usage) finished

end CommandLine

end Chip8
