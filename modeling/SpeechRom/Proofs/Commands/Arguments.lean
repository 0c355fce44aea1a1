import Mathlib.Data.List.Induction
import SpeechRom.Commands.ImageBuilder
import SpeechRom.Proofs.Attempt

/-!
# The arguments of a build

Arguments are read from left to right as items: an option with its value, an option without one, or
a directory.  `readArguments_eq_ok_iff` says that a request is read from arguments that are spelled
by items, and `readArguments_eq_error_iff` that any others come, behind some items, to what stops
the reading.  An item takes its value with it, so the value of an option, whatever it looks like, is
neither an input nor an option.
-/

namespace SpeechRom.Commands.ImageBuilder

/-! ## Items -/

/-- What arguments are made of. -/
inductive Item where
  | output (option file : String)
  | settings (option file : String)
  | verbose (option : String)
  | input (directory : String)

namespace Item

/-- How an item is spelled. -/
def arguments : Item → List String
  | .output option file | .settings option file => [option, file]
  | .verbose option => [option]
  | .input directory => [directory]

/-- An item names its option as the command knows it, and a directory does not look like one. -/
def Proper : Item → Prop
  | .output option _ => option = "-o" ∨ option = "--output"
  | .settings option _ => option = "-c" ∨ option = "--config"
  | .verbose option => option = "-v" ∨ option = "--verbose"
  | .input directory => directory.startsWith "-" = false

/-- The directory that an item names. -/
def input? : Item → Option String
  | .input directory => some directory
  | _ => none

/-- The output file that an item names. -/
def outputFile? : Item → Option String
  | .output _ file => some file
  | _ => none

/-- The settings file that an item names. -/
def settingsFile? : Item → Option String
  | .settings _ file => some file
  | _ => none

/-- Whether an item asks for more output. -/
def isVerbose : Item → Bool
  | .verbose _ => true
  | _ => false

end Item

/-- Items that are spelled by arguments, one after another. -/
structure Spells (items : List Item) (arguments : List String) : Prop where
  proper : ∀ item ∈ items, item.Proper
  spelling : items.flatMap Item.arguments = arguments

/-- What the reading does not get past. -/
inductive Stops : Refusal → List String → Prop
  | help {option : String} {rest : List String} (hoption : option = "-h" ∨ option = "--help") :
      Stops .help (option :: rest)
  | noOutputFile {option : String} (hoption : option = "-o" ∨ option = "--output") :
      Stops .noOutputFile [option]
  | noSettingsFile {option : String} (hoption : option = "-c" ∨ option = "--config") :
      Stops .noSettingsFile [option]
  | unknownOption {option : String} {rest : List String} (hdash : option.startsWith "-" = true)
      (hunknown : option ∉
        ["-o", "--output", "-c", "--config", "-v", "--verbose", "-h", "--help"]) :
      Stops (.unknownOption option) (option :: rest)

theorem Spells.nil : Spells [] [] := ⟨by simp, rfl⟩

theorem Spells.cons {item : Item} {items : List Item} {arguments : List String}
    (hitem : item.Proper) (hrest : Spells items arguments) :
    Spells (item :: items) (item.arguments ++ arguments) :=
  ⟨List.forall_mem_cons.mpr ⟨hitem, hrest.proper⟩, by rw [List.flatMap_cons, hrest.spelling]⟩

/-! ## Every list of arguments is items up to an end -/

/-- What stands behind some items: nothing, or what stops the reading. -/
def Splits (arguments : List String) : Prop :=
  ∃ items spelled rest, Spells items spelled ∧ arguments = spelled ++ rest ∧
    (rest = [] ∨ ∃ refusal, Stops refusal rest)

theorem Splits.cons (item : Item) {arguments : List String} (hitem : item.Proper)
    (hrest : Splits arguments) : Splits (item.arguments ++ arguments) := by
  obtain ⟨items, spelled, rest, hspells, rfl, hend⟩ := hrest
  exact ⟨item :: items, _, rest, hspells.cons hitem, (List.append_assoc _ _ _).symm, hend⟩

theorem Stops.splits {refusal : Refusal} {rest : List String} (hstops : Stops refusal rest) :
    Splits rest :=
  ⟨[], [], rest, .nil, rfl, .inr ⟨refusal, hstops⟩⟩

theorem splits (arguments : List String) : Splits arguments := by
  -- the cases are those of the reading; what has been read before does not matter
  induction Request.mk [] none none false, arguments using readArguments.induct with
  | case1 => exact ⟨[], [], [], .nil, rfl, .inl rfl⟩
  | case2 _ file rest ih => exact .cons (.output "-o" file) (.inl rfl) ih
  | case3 => exact (Stops.noOutputFile (.inl rfl)).splits
  | case4 _ file rest ih => exact .cons (.output "--output" file) (.inr rfl) ih
  | case5 => exact (Stops.noOutputFile (.inr rfl)).splits
  | case6 _ file rest ih => exact .cons (.settings "-c" file) (.inl rfl) ih
  | case7 => exact (Stops.noSettingsFile (.inl rfl)).splits
  | case8 _ file rest ih => exact .cons (.settings "--config" file) (.inr rfl) ih
  | case9 => exact (Stops.noSettingsFile (.inr rfl)).splits
  | case10 _ rest ih => exact .cons (.verbose "-v") (.inl rfl) ih
  | case11 _ rest ih => exact .cons (.verbose "--verbose") (.inr rfl) ih
  | case12 _ rest => exact (Stops.help (.inl rfl)).splits
  | case13 _ rest => exact (Stops.help (.inr rfl)).splits
  | case14 _ option rest h1 h2 h3 h4 h5 h6 h7 h8 hdash =>
      refine (Stops.unknownOption hdash ?_).splits
      simp only [List.mem_cons, List.not_mem_nil, or_false]
      rintro (h | h | h | h | h | h | h | h)
      exacts [h1 h, h2 h, h3 h, h4 h, h5 h, h6 h, h7 h, h8 h]
  | case15 _ directory rest _ _ _ _ _ _ _ _ hdash ih =>
      exact .cons (.input directory) (Bool.eq_false_iff.mpr hdash) ih

/-! ## What is read -/

/-- What an item adds to a request. -/
def Request.enter (request : Request) : Item → Request
  | .output _ file => { request with outputFile := some file }
  | .settings _ file => { request with settingsFile := some file }
  | .verbose _ => { request with verbose := true }
  | .input directory => { request with inputs := request.inputs ++ [directory] }

/-- The request that items make: of several files of a kind, the last. -/
def Request.ofItems (items : List Item) : Request where
  inputs := items.filterMap Item.input?
  outputFile := (items.filterMap Item.outputFile?).getLast?
  settingsFile := (items.filterMap Item.settingsFile?).getLast?
  verbose := items.any Item.isVerbose

theorem foldl_enter (items : List Item) :
    items.foldl Request.enter ⟨[], none, none, false⟩ = Request.ofItems items := by
  induction items using List.reverseRecOn with
  | nil => rfl
  | append_singleton items item ih =>
      rw [List.foldl_append, ih]
      cases item <;>
        simp [Request.enter, Request.ofItems, Item.input?, Item.outputFile?, Item.settingsFile?,
          Item.isVerbose]

theorem ne_of_no_dash {directory option : String} (hdirectory : directory.startsWith "-" = false)
    (hoption : option.startsWith "-" = true) : directory ≠ option := by
  rintro rfl
  rw [hdirectory] at hoption
  cases hoption

/-- An item is read as a whole. -/
theorem readArguments_item {item : Item} (hitem : item.Proper) (request : Request)
    (rest : List String) :
    readArguments request (item.arguments ++ rest) =
      readArguments (request.enter item) rest := by
  cases item with
  | output option file => rcases hitem with rfl | rfl <;> rfl
  | settings option file => rcases hitem with rfl | rfl <;> rfl
  | verbose option => rcases hitem with rfl | rfl <;> rfl
  | input directory =>
      have hne : ∀ option : String, option.startsWith "-" = true → directory ≠ option :=
        fun option => ne_of_no_dash hitem
      change readArguments request (directory :: rest) = _
      rw [readArguments]
      · rw [if_neg (Bool.eq_false_iff.mp hitem)]
        rfl
      -- a directory is none of the options that are matched before it
      all_goals exact hne _ (by simp)

theorem readArguments_append {items : List Item} {spelled : List String}
    (hspells : Spells items spelled) (request : Request) (rest : List String) :
    readArguments request (spelled ++ rest) =
      readArguments (items.foldl Request.enter request) rest := by
  obtain ⟨hproper, rfl⟩ := hspells
  induction items generalizing request with
  | nil => rfl
  | cons item items ih =>
      obtain ⟨hitem, hitems⟩ := List.forall_mem_cons.mp hproper
      rw [List.flatMap_cons, List.append_assoc, readArguments_item hitem, ih _ hitems,
        List.foldl_cons]

theorem readArguments_of_stops {refusal : Refusal} {rest : List String}
    (hstops : Stops refusal rest) (request : Request) :
    readArguments request rest = .error refusal := by
  cases hstops with
  | help hoption => rcases hoption with rfl | rfl <;> rfl
  | noOutputFile hoption => rcases hoption with rfl | rfl <;> rfl
  | noSettingsFile hoption => rcases hoption with rfl | rfl <;> rfl
  | unknownOption hdash hunknown =>
      simp only [List.mem_cons, List.not_mem_nil, or_false, not_or] at hunknown
      obtain ⟨h1, h2, h3, h4, h5, h6, h7, h8⟩ := hunknown
      rw [readArguments]
      · rw [if_pos hdash]
      all_goals assumption

/-- A request is read from what spells its items. -/
theorem readArguments_eq_ok_iff {arguments : List String} {request : Request} :
    readArguments ⟨[], none, none, false⟩ arguments = .ok request ↔
      ∃ items, Spells items arguments ∧ Request.ofItems items = request := by
  constructor
  · intro hread
    obtain ⟨items, spelled, rest, hspells, rfl, hend⟩ := splits arguments
    rw [readArguments_append hspells, foldl_enter] at hread
    rcases hend with rfl | ⟨refusal, hstops⟩
    · cases hread
      exact ⟨items, (List.append_nil spelled).symm ▸ hspells, rfl⟩
    · rw [readArguments_of_stops hstops] at hread
      cases hread
  · rintro ⟨items, hspells, rfl⟩
    have hread := readArguments_append hspells ⟨[], none, none, false⟩ []
    rw [List.append_nil, foldl_enter] at hread
    exact hread

/-- Arguments are refused for what stands behind some items. -/
theorem readArguments_eq_error_iff {arguments : List String} {refusal : Refusal} :
    readArguments ⟨[], none, none, false⟩ arguments = .error refusal ↔
      ∃ items spelled rest, Spells items spelled ∧ arguments = spelled ++ rest ∧
        Stops refusal rest := by
  constructor
  · intro hread
    obtain ⟨items, spelled, rest, hspells, rfl, hend⟩ := splits arguments
    rw [readArguments_append hspells, foldl_enter] at hread
    rcases hend with rfl | ⟨other, hstops⟩
    · cases hread
    · rw [readArguments_of_stops hstops] at hread
      cases hread
      exact ⟨items, spelled, rest, hspells, rfl, hstops⟩
  · rintro ⟨items, spelled, rest, hspells, rfl, hstops⟩
    rw [readArguments_append hspells, readArguments_of_stops hstops]

end SpeechRom.Commands.ImageBuilder
