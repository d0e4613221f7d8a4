import Mathlib.Data.List.Nodup
import RowAlgebra.Proofs.FragmentPatterns

/-! From configurations to escapers. A configuration has to list the standard wildcards and must not
list its escape character. The wildcards of its escaper are those that it lists, without repetition,
the standard ones first and the others as they first appear; so the wildcards of an escaper give
that escaper again. -/

namespace RowAlgebra.Proofs.ConfiguredEscaper
open Like

inductive Settles (config : LikeConfig) : Except ConfigError Escaper → Prop where
  | missingRun (absent : '%' ∉ config.wildcards) : Settles config (.error (.missingWildcard '%'))
  | missingOne (run : '%' ∈ config.wildcards) (absent : '_' ∉ config.wildcards) :
      Settles config (.error (.missingWildcard '_'))
  | escapeListed (run : '%' ∈ config.wildcards) (one : '_' ∈ config.wildcards)
      (listed : config.escape ∈ config.wildcards) : Settles config (.error (.escapeIsWildcard config.escape))
  | built {extras : List Char} (run : '%' ∈ config.wildcards) (one : '_' ∈ config.wildcards)
      (unlisted : config.escape ∉ config.wildcards) (distinct : ('%' :: '_' :: extras).Nodup)
      (members : ∀ char, char ∈ '%' :: '_' :: extras ↔ char ∈ config.wildcards)
      (ordered : extras.Pairwise fun first second => config.wildcards.idxOf first < config.wildcards.idxOf second) :
      Settles config (.ok ⟨config.escape, '%' :: '_' :: extras⟩)

/-- The ways to come by an escaper. -/
inductive Built : Escaper → Prop where
  | withWildcards (escape : Char) (extra : List Char) : Built (.withWildcards escape extra)
  | new (escape : Char) : Built (.new escape)
  | standard : Built .standard
  | configured {config : LikeConfig} {escaper : Escaper} (settled : config.escaper = .ok escaper) : Built escaper

/-- What a list adds to the wildcards that are there: each other character where it first appears. -/
structure Adds (wildcards listed added : List Char) : Prop where
  distinct : added.Nodup
  members : ∀ char, char ∈ added ↔ char ∈ listed ∧ char ∉ wildcards
  ordered : added.Pairwise fun first second => listed.idxOf first < listed.idxOf second

theorem Adds.unique {wildcards listed first second : List Char} (adds : Adds wildcards listed first)
    (other : Adds wildcards listed second) : first = second := by
  have same : first.Perm second := by
    apply (List.perm_ext_iff_of_nodup adds.distinct other.distinct).mpr
    intro char
    exact (adds.members char).trans (other.members char).symm
  apply List.Perm.eq_of_pairwise ?_ adds.ordered other.ordered same
  intro a b _ _ before behind
  exact absurd before (Nat.lt_asymm behind)

section
variable {wildcards listed added : List Char} {char : Char}

private theorem ordered_cons (absent : char ∉ added)
    (ordered : added.Pairwise fun first second => listed.idxOf first < listed.idxOf second) :
    added.Pairwise fun first second => (char :: listed).idxOf first < (char :: listed).idxOf second := by
  apply ordered.imp_of_mem
  intro first second member other before
  have apart : ∀ found ∈ added, char ≠ found := fun found inside same => absent (same ▸ inside)
  rw [List.idxOf_cons_ne _ (apart first member), List.idxOf_cons_ne _ (apart second other)]
  exact Nat.succ_lt_succ before

theorem adds_present (present : char ∈ wildcards) (adds : Adds wildcards listed added) :
    Adds wildcards (char :: listed) added := by
  have absent : char ∉ added := fun member => ((adds.members char).mp member).2 present
  refine ⟨adds.distinct, ?_, ordered_cons absent adds.ordered⟩
  intro other
  rw [adds.members, List.mem_cons, or_and_right]
  refine (or_iff_right ?_).symm
  rintro ⟨rfl, fresh⟩
  exact fresh present

theorem adds_fresh (fresh : char ∉ wildcards) (adds : Adds (wildcards ++ [char]) listed added) :
    Adds wildcards (char :: listed) (char :: added) := by
  have absent : char ∉ added := by
    intro member
    exact ((adds.members char).mp member).2 (List.mem_append_right _ List.mem_cons_self)
  refine ⟨List.nodup_cons.mpr ⟨absent, adds.distinct⟩, ?_, ?_⟩
  · intro other
    by_cases same : other = char
    · subst same
      simp [fresh]
    · simp [adds.members, same]
  · refine List.pairwise_cons.mpr ⟨?_, ordered_cons absent adds.ordered⟩
    intro other member
    have apart : char ≠ other := fun same => absent (same ▸ member)
    rw [List.idxOf_cons_self, List.idxOf_cons_ne _ apart]
    exact Nat.succ_pos _

end

theorem foldl_addWildcard (wildcards listed : List Char) :
    ∃ added, listed.foldl Escaper.addWildcard wildcards = wildcards ++ added ∧ Adds wildcards listed added := by
  induction listed generalizing wildcards with
  | nil => exact ⟨[], (List.append_nil _).symm, List.nodup_nil, by simp, List.Pairwise.nil⟩
  | cons char listed ih =>
    rw [List.foldl_cons, Escaper.addWildcard]
    split
    next present =>
      obtain ⟨added, same, adds⟩ := ih wildcards
      exact ⟨added, same, adds_present present adds⟩
    next fresh =>
      obtain ⟨added, same, adds⟩ := ih (wildcards ++ [char])
      refine ⟨char :: added, ?_, adds_fresh fresh adds⟩
      rw [same, List.append_assoc, List.singleton_append]

theorem foldl_addWildcard_of_nodup {wildcards listed : List Char} (distinct : (wildcards ++ listed).Nodup) :
    listed.foldl Escaper.addWildcard wildcards = wildcards ++ listed := by
  induction listed generalizing wildcards with
  | nil => exact (List.append_nil _).symm
  | cons char listed ih =>
    have fresh : char ∉ wildcards := fun present =>
      (List.nodup_append.mp distinct).2.2 char present char List.mem_cons_self rfl
    rw [List.append_cons] at distinct
    rw [List.foldl_cons, Escaper.addWildcard, if_neg fresh, ih distinct, ← List.append_cons]

theorem withWildcards_eq (escape : Char) (extra : List Char) : ∃ extras,
    Escaper.withWildcards escape extra = ⟨escape, standardWildcards ++ extras⟩ ∧ Adds standardWildcards extra extras := by
  obtain ⟨extras, same, adds⟩ := foldl_addWildcard standardWildcards extra
  exact ⟨extras, congrArg (Escaper.mk escape) same, adds⟩

theorem Adds.nodup_append {wildcards listed added : List Char} (distinct : wildcards.Nodup)
    (adds : Adds wildcards listed added) : (wildcards ++ added).Nodup := by
  refine List.nodup_append.mpr ⟨distinct, adds.distinct, ?_⟩
  rintro char present _ member rfl
  exact ((adds.members char).mp member).2 present

theorem mem_append_of_subset {wildcards listed added : List Char} (covered : wildcards ⊆ listed)
    (adds : Adds wildcards listed added) (char : Char) : char ∈ wildcards ++ added ↔ char ∈ listed := by
  rw [List.mem_append, adds.members]
  constructor
  · rintro (present | ⟨listed, -⟩)
    · exact covered present
    · exact listed
  · intro listed
    by_cases present : char ∈ wildcards
    · exact .inl present
    · exact .inr ⟨listed, present⟩

private theorem nodup_standardWildcards : standardWildcards.Nodup := by decide

theorem withWildcards_self (escape : Char) (extra : List Char) :
    Escaper.withWildcards escape (Escaper.withWildcards escape extra).wildcards = .withWildcards escape extra := by
  obtain ⟨extras, same, adds⟩ := withWildcards_eq escape extra
  have standard : standardWildcards.foldl Escaper.addWildcard standardWildcards = standardWildcards := by decide
  rw [same, Escaper.withWildcards]
  rw [List.foldl_append, standard, foldl_addWildcard_of_nodup (adds.nodup_append nodup_standardWildcards)]

theorem find?_missing (listed : List Char) :
    standardWildcards.find? (fun wildcard => wildcard ∉ listed) =
      if '%' ∉ listed then some '%' else if '_' ∉ listed then some '_' else none := by
  by_cases run : '%' ∈ listed
  · by_cases one : '_' ∈ listed <;> simp [standardWildcards, run, one]
  · simp [standardWildcards, run]

theorem escaper_settles (config : LikeConfig) : Settles config config.escaper := by
  unfold LikeConfig.escaper
  rw [find?_missing]
  by_cases run : '%' ∈ config.wildcards
  · by_cases one : '_' ∈ config.wildcards
    · simp only [run, one, not_true_eq_false, if_false]
      split
      next listed => exact .escapeListed run one listed
      next unlisted =>
        have covered : standardWildcards ⊆ config.wildcards := by simp [standardWildcards, run, one]
        obtain ⟨extras, same, adds⟩ := withWildcards_eq config.escape config.wildcards
        rw [same]
        exact .built run one unlisted (adds.nodup_append nodup_standardWildcards) (mem_append_of_subset covered adds)
          adds.ordered
    · simp only [run, one, not_true_eq_false, not_false_eq_true, if_false, if_true]
      exact .missingOne run one
  · simp only [run, not_false_eq_true, if_true]
    exact .missingRun run

private theorem adds_extras {listed extras : List Char} (distinct : ('%' :: '_' :: extras).Nodup)
    (members : ∀ char, char ∈ '%' :: '_' :: extras ↔ char ∈ listed)
    (ordered : extras.Pairwise fun first second => listed.idxOf first < listed.idxOf second) :
    Adds standardWildcards listed extras := by
  obtain ⟨-, separate, apart⟩ := List.nodup_append.mp (show (standardWildcards ++ extras).Nodup from distinct)
  refine ⟨separate, ?_, ordered⟩
  intro char
  rw [← members]
  change char ∈ extras ↔ char ∈ standardWildcards ++ extras ∧ char ∉ standardWildcards
  rw [List.mem_append]
  constructor
  · intro extra
    exact ⟨.inr extra, fun present => apart char present char extra rfl⟩
  · rintro ⟨present | extra, fresh⟩
    · exact absurd present fresh
    · exact extra

theorem Settles.unique {config : LikeConfig} {first second : Except ConfigError Escaper}
    (settles : Settles config first) (other : Settles config second) : first = second := by
  cases settles with
  | missingRun absent =>
    cases other with
    | missingRun => rfl
    | missingOne run | escapeListed run | built run => exact absurd run absent
  | missingOne run absent =>
    cases other with
    | missingRun missing => exact absurd run missing
    | missingOne => rfl
    | escapeListed _ one | built _ one => exact absurd one absent
  | escapeListed run one listed =>
    cases other with
    | missingRun missing => exact absurd run missing
    | missingOne _ missing => exact absurd one missing
    | escapeListed => rfl
    | built _ _ unlisted => exact absurd listed unlisted
  | built run one unlisted distinct members ordered =>
    cases other with
    | missingRun missing => exact absurd run missing
    | missingOne _ missing => exact absurd one missing
    | escapeListed _ _ listed => exact absurd listed unlisted
    | built _ _ _ separate same sorted =>
      rw [(adds_extras distinct members ordered).unique (adds_extras separate same sorted)]

theorem built_withWildcards {escaper : Escaper} (built : Built escaper) :
    ∃ escape extra, Escaper.withWildcards escape extra = escaper := by
  cases built with
  | withWildcards escape extra => exact ⟨escape, extra, rfl⟩
  | new escape => exact ⟨escape, [], rfl⟩
  | standard => exact ⟨standardEscape, [], rfl⟩
  | @configured config _ settled =>
    exact ⟨config.escape, config.wildcards, (FragmentPatterns.escaper_ok settled).1.symm⟩

/-- A configuration gives an escaper of just its wildcards, in their order, or the first of its
faults; and no escaper changes when it is built again from its own wildcards. -/
theorem configurations_settle :
    (∀ config result, LikeConfig.escaper config = result ↔ Settles config result) ∧
      ∀ escaper, Built escaper → Escaper.withWildcards escaper.escapeChar escaper.wildcards = escaper := by
  constructor
  · intro config result
    constructor
    · rintro rfl
      exact escaper_settles config
    · exact (escaper_settles config).unique
  · intro escaper built
    obtain ⟨escape, extra, rfl⟩ := built_withWildcards built
    exact withWildcards_self escape extra

/-- A list with the standard wildcards last, and with repetitions. -/
theorem repeated_wildcards_settle :
    let config : LikeConfig := ⟨'!', ['*', '_', '#', '*', '%', '_']⟩
    let escaper : Escaper := ⟨'!', ['%', '_', '*', '#']⟩
    config.escaper = .ok escaper ∧ Settles config (.ok escaper) ∧ Built escaper ∧
      Escaper.withWildcards '!' ['%', '_', '*', '#'] = escaper := by
  intro config escaper
  have settled : config.escaper = .ok escaper := by decide
  exact ⟨settled, (configurations_settle.1 config _).mp settled, .configured settled,
    configurations_settle.2 escaper (.configured settled)⟩

end RowAlgebra.Proofs.ConfiguredEscaper
