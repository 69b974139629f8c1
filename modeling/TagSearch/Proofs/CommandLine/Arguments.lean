import Mathlib.Data.List.Induction
import Mathlib.Tactic.Lemma
import TagSearch.CommandLine.Arguments
import TagSearch.Proofs.Text.Decimal

/-! Command lines. Options may stand anywhere among the command and the words of the query, in any order and number.
They do not change what the other words mean, and of each option the last value counts. -/
namespace TagSearch.CommandLine

/-- An option in one of its spellings, with its value. -/
inductive Setting
  | config (short : Bool) (path : String)
  | user (short : Bool) (name : String)
  | start (text : String) (n : UInt64) (value : Text.DenotesWord text.toList n.toNat)
  | stride (text : String) (n : UInt64) (value : Text.DenotesWord text.toList n.toNat)
  | collections
  | verbose (short : Bool)

namespace Setting

/-- The words of an option. A value is any word, also one that looks like an option or a command. -/
def words : Setting → List String
  | config short path => [if short then "-c" else "--config", path]
  | user short name => [if short then "-u" else "--user", name]
  | start text _ _ => ["--start", text]
  | stride text _ _ => ["--stride", text]
  | collections => ["--collections"]
  | verbose short => [if short then "-v" else "--verbose"]

def config? : Setting → Option String
  | config _ path => some path
  | _ => none

def user? : Setting → Option String
  | user _ name => some name
  | _ => none

def start? : Setting → Option UInt64
  | start _ n _ => some n
  | _ => none

def stride? : Setting → Option UInt64
  | stride _ n _ => some n
  | _ => none

def isCollections : Setting → Bool
  | collections => true
  | _ => false

def isVerbose : Setting → Bool
  | verbose _ => true
  | _ => false

/-- The arguments with an option; it replaces an earlier one. -/
def applyTo (args : Arguments) : Setting → Arguments
  | config _ path => { args with config := some path }
  | user _ name => { args with user := some name }
  | start _ n _ => { args with start := n }
  | stride _ n _ => { args with stride := some n }
  | collections => { args with collections := true }
  | verbose _ => { args with verbose := true }

end Setting

/-- The words that ask for a command. -/
inductive Spells : List String → Command → Prop
  | parse : Spells ["parse"] .parse
  | images : Spells ["images"] .images
  | collections : Spells ["collections"] .collections
  | adjacent {text : String} {pivot : UInt64} (value : Text.DenotesWord text.toList pivot.toNat) :
      Spells ["adjacent", text] (.adjacent pivot)
  | random : Spells ["random"] .random
  | exportTo (path : String) : Spells ["export", path] (.exportTo path)
  | hash : Spells ["hash"] .hash
  | stats : Spells ["stats"] .stats

/-- The words that are options wherever they stand. -/
def optionWords : List String :=
  ["--help", "-h", "--version", "-V", "--config", "-c", "--user", "-u", "--start", "--stride", "--collections",
    "--verbose", "-v"]

/-- A line of words that is made of options and other pieces, each kind in its order. The words of a piece stay
together. -/
inductive Interleaves : List Setting → List (List String) → List String → Prop
  | nil : Interleaves [] [] []
  | setting {settings : List Setting} {pieces : List (List String)} {line : List String} (setting : Setting)
      (rest : Interleaves settings pieces line) : Interleaves (setting :: settings) pieces (setting.words ++ line)
  | piece {settings : List Setting} {pieces : List (List String)} {line : List String} (piece : List String)
      (rest : Interleaves settings pieces line) : Interleaves settings (piece :: pieces) (piece ++ line)

variable {args : Arguments} {settings : List Setting} {query line words : List String} {command : Command}

lemma keyword_eq_none {word : String} (h : word ∉ optionWords) : Keyword.ofWord? word = none := by
  simp only [optionWords, List.mem_cons, List.not_mem_nil, or_false, not_or] at h
  simp [Keyword.ofWord?, h]

lemma number_of_denotes {flag text : String} {n : UInt64} (h : Text.DenotesWord text.toList n.toNat) :
    number flag text = .ok n := by
  rw [number, Text.word?_eq_some_iff.mpr h]

namespace Arguments

lemma readFrom_flag {after : Arguments} {flag : Flag} {word value : String}
    (hword : Keyword.ofWord? word = some (.flag flag)) (hset : args.set flag value = .ok after) (rest : List String) :
    args.readFrom (word :: value :: rest) = after.readFrom rest := by
  rw [readFrom, hword]
  simp only [hset]

lemma readFrom_setting (args : Arguments) (setting : Setting) (rest : List String) :
    args.readFrom (setting.words ++ rest) = (setting.applyTo args).readFrom rest := by
  cases setting with
  | config short path => cases short <;> rfl
  | user short name => cases short <;> rfl
  | start text n value =>
    have hset : args.set .start text = .ok { args with start := n } := by
      rw [set, number_of_denotes value]
      rfl
    exact readFrom_flag rfl hset rest
  | stride text n value =>
    have hset : args.set .stride text = .ok { args with stride := some n } := by
      rw [set, number_of_denotes value]
      rfl
    exact readFrom_flag rfl hset rest
  | collections => rfl
  | verbose short => cases short <;> rfl

lemma readFrom_word {word : String} (h : args.command.isSome = true) (hword : word ∉ optionWords)
    (rest : List String) : args.readFrom (word :: rest) = { args with query := args.query ++ [word] }.readFrom rest := by
  rw [readFrom, keyword_eq_none hword]
  exact if_pos h

lemma readFrom_plain {word : String} (h : args.command = none) (hword : Keyword.ofWord? word = none)
    (hverb : Verb.ofWord? word = some (.plain command)) (rest : List String) :
    args.readFrom (word :: rest) = { args with command := some command }.readFrom rest := by
  rw [readFrom, hword]
  simp only [h, hverb, Option.isSome_none, Bool.false_eq_true, if_false]

lemma readFrom_operand {word operand : String} {verb : Verb} (h : args.command = none)
    (hword : Keyword.ofWord? word = none) (hverb : Verb.ofWord? word = some verb)
    (hoperand : verb.withOperand operand = .ok command) (rest : List String) (hplain : ∀ c, verb ≠ .plain c) :
    args.readFrom (word :: operand :: rest) = { args with command := some command }.readFrom rest := by
  rw [readFrom, hword]
  simp only [h, hverb, Option.isSome_none, Bool.false_eq_true, if_false]
  cases verb with
  | plain c => exact absurd rfl (hplain c)
  | adjacent => rw [hoperand]
  | exportTo => rw [hoperand]

/-- The words of a command are read together, whatever its operand looks like. -/
lemma readFrom_command (h : args.command = none) (hwords : Spells words command) (rest : List String) :
    args.readFrom (words ++ rest) = { args with command := some command }.readFrom rest := by
  cases hwords with
  | adjacent value =>
    refine readFrom_operand h rfl rfl ?_ rest fun c => nofun
    rw [Verb.withOperand, number_of_denotes value]
    rfl
  | exportTo path => exact readFrom_operand h rfl rfl rfl rest fun c => nofun
  | parse | images | collections | random | hash | stats => exact readFrom_plain h rfl rfl rest

/-- The arguments with another command and query. -/
def withWords (args : Arguments) (command : Option Command) (query : List String) : Arguments :=
  { args with command := command, query := query }

/-- An option leaves the command and the query to the other words. -/
lemma applyTo_withWords (args : Arguments) (setting : Setting) (command : Option Command) (query : List String) :
    setting.applyTo (args.withWords command query) = (setting.applyTo args).withWords command query := by
  cases setting <;> rfl

lemma words_applyTo (args : Arguments) (setting : Setting) :
    (setting.applyTo args).command = args.command ∧ (setting.applyTo args).query = args.query := by
  cases setting <;> exact ⟨rfl, rfl⟩

/-- Behind the command, all words that are no options belong to the query. -/
lemma readFrom_behind_command (h : args.command = some command)
    (hline : Interleaves settings (query.map fun word => [word]) line) (hquery : ∀ word ∈ query, word ∉ optionWords) :
    args.readFrom line =
      .ok (settings.foldl Setting.applyTo (args.withWords (some command) (args.query ++ query))) := by
  generalize hpieces : query.map (fun word => [word]) = pieces at hline
  induction hline generalizing args query with
  | nil =>
    rw [List.map_eq_nil_iff.mp hpieces, List.append_nil, ← h]
    rfl
  | setting setting _ ih =>
    obtain ⟨hcommand, hwords⟩ := words_applyTo args setting
    rw [readFrom_setting, ih (hcommand.trans h) hquery hpieces, hwords, List.foldl_cons, applyTo_withWords]
  | piece piece _ ih =>
    obtain ⟨word, rest, rfl, rfl, hrest⟩ := List.map_eq_cons_iff.mp hpieces
    rw [List.forall_mem_cons] at hquery
    have hrest := @ih { args with query := args.query ++ [word] } rest h hquery.2 hrest
    rw [List.append_assoc] at hrest
    rw [List.singleton_append, readFrom_word (by rw [h]; rfl) hquery.1]
    exact hrest

/-- In front of the command there are only options. -/
lemma readFrom_line (h : args.command = none) (hwords : Spells words command)
    (hline : Interleaves settings (words :: query.map fun word => [word]) line)
    (hquery : ∀ word ∈ query, word ∉ optionWords) :
    args.readFrom line =
      .ok (settings.foldl Setting.applyTo (args.withWords (some command) (args.query ++ query))) := by
  generalize hpieces : words :: query.map (fun word => [word]) = pieces at hline
  induction hline generalizing args with
  | nil => cases hpieces
  | setting setting _ ih =>
    obtain ⟨hcommand, hquery⟩ := words_applyTo args setting
    rw [readFrom_setting, ih (hcommand.trans h) hpieces, hquery, List.foldl_cons, applyTo_withWords]
  | piece piece hrest _ =>
    obtain ⟨rfl, rfl⟩ := List.cons.inj hpieces
    rw [readFrom_command h hwords]
    exact readFrom_behind_command rfl hrest hquery

/-- Of each option the last value counts. -/
lemma foldl_applyTo (settings : List Setting) (args : Arguments) :
    settings.foldl Setting.applyTo args =
      { command := args.command
        query := args.query
        config := (settings.filterMap Setting.config?).getLast?.or args.config
        user := (settings.filterMap Setting.user?).getLast?.or args.user
        start := (settings.filterMap Setting.start?).getLast?.getD args.start
        stride := (settings.filterMap Setting.stride?).getLast?.or args.stride
        collections := args.collections || settings.any Setting.isCollections
        verbose := args.verbose || settings.any Setting.isVerbose } := by
  induction settings using List.reverseRecOn with
  | nil => simp
  | append_singleton settings setting ih =>
    rw [List.foldl_append, ih]
    cases setting <;>
      simp [Setting.applyTo, Setting.config?, Setting.user?, Setting.start?, Setting.stride?, Setting.isCollections,
        Setting.isVerbose]

/-- Options may stand anywhere. A line with one command in front of the words of its query, and with options between
them, is read as that command with its operand, exactly those words in order, and for each option its last value or the
default. It makes no difference where the options stand, what their values look like, or that a word of the query looks
like a command. -/
theorem parse_interleaved (hwords : Spells words command) (hquery : ∀ word ∈ query, word ∉ optionWords)
    (hline : Interleaves settings (words :: query.map fun word => [word]) line) :
    parse line = .ok
      { command := some command
        query := query
        config := (settings.filterMap Setting.config?).getLast?
        user := (settings.filterMap Setting.user?).getLast?
        start := (settings.filterMap Setting.start?).getLast?.getD 0
        stride := (settings.filterMap Setting.stride?).getLast?
        collections := settings.any Setting.isCollections
        verbose := settings.any Setting.isVerbose } := by
  rw [parse, readFrom_line rfl hwords hline hquery, foldl_applyTo]
  simp only [withWords, empty, List.nil_append, Option.or_none, Bool.false_or]

/-- Values and an operand that look like options, and words of the query that look like commands. -/
theorem parse_of_misleading_line :
    parse ["-u", "--start", "--start", "5", "export", "--help", "-sky", "--collections", "images", "--start", "+3",
        "-c", "stats", "adjacent"] =
      .ok ⟨some (.exportTo "--help"), ["-sky", "images", "adjacent"], some "stats", some "--start", 3, none, true, false⟩ := by
  have hquery : ∀ word ∈ ["-sky", "images", "adjacent"], word ∉ optionWords := by decide
  have hfive : Text.DenotesWord "5".toList (5 : UInt64).toNat := Text.word?_eq_some_iff.mp (by decide)
  have hthree : Text.DenotesWord "+3".toList (3 : UInt64).toNat := Text.word?_eq_some_iff.mp (by decide)
  have hline : Interleaves
      [.user true "--start", .start "5" 5 hfive, .collections, .start "+3" 3 hthree, .config true "stats"]
      (["export", "--help"] :: ["-sky", "images", "adjacent"].map fun word => [word])
      ["-u", "--start", "--start", "5", "export", "--help", "-sky", "--collections", "images", "--start", "+3", "-c",
        "stats", "adjacent"] :=
    .setting _ (.setting _ (.piece _ (.piece _ (.setting _ (.piece _ (.setting _ (.setting _ (.piece _ .nil))))))))
  exact parse_interleaved (.exportTo "--help") hquery hline

end Arguments
end TagSearch.CommandLine
