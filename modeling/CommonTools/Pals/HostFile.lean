import CommonTools.Library.Scanning
import CommonTools.FeDaemon.Wire

namespace CommonTools.Pals
open Scanning Texts FeDaemon List

structure HostName where
  text : Bytes
  some' : text ≠ []
  plain : newline ∉ text

-- std::set<std::string>: the names in their order, each once.
structure Hosts where
  names : List HostName
  ordered : names.Pairwise fun one two => one.text < two.text

-- The name up to its first dot with the dot, or the whole name.
def execHostPrefix (execHost : Bytes) : Bytes :=
  if execHost.contains 46 then execHost.takeWhile (· ≠ 46) ++ [46] else execHost

def firstHost (hosts : List Bytes) (execHost : Bytes) : Bytes := (hosts.find? (execHostPrefix execHost).isPrefixOf).getD []

def hostFile (hosts : List Bytes) (execHost : Bytes) : Bytes :=
  let first := firstHost hosts execHost
  (if first ≠ [] then first ++ [newline] else []) ++ (hosts.filter (· ≠ first)).flatten

def shortName (host : Bytes) : Bytes := host.takeWhile (· ≠ 46)

def SameHost (host execHost : Bytes) : Prop := shortName host = shortName execHost

instance (host execHost : Bytes) : Decidable (SameHost host execHost) := inferInstanceAs (Decidable (_ = _))

def Begins (host execHost : Bytes) : Prop := execHostPrefix execHost <+: host

def Hosts.texts (hosts : Hosts) : List Bytes := hosts.names.map HostName.text

def hostLines (hosts : Hosts) (execHost : Bytes) : List Bytes := byteLines [] (hostFile hosts.texts execHost)

def Complete (hosts : Hosts) (execHost : Bytes) : Prop :=
  (hostLines hosts execHost).Perm hosts.texts ∧
    ((∃ host ∈ hosts.texts, SameHost host execHost) → ∃ host, (hostLines hosts execHost).head? = some host ∧ SameHost host execHost)

-- At most two hosts, and with two of them one that begins like the execution host; not one
-- that only begins so before the execution host.
def Writable (execHost : Bytes) : List Bytes → Prop
  | [] => True
  | [_] => True
  | [one,two] => (Begins one execHost ∨ Begins two execHost) ∧ ¬ (Begins one execHost ∧ ¬ SameHost one execHost ∧ SameHost two execHost)
  | _ => False

section Names
variable {host execHost : Bytes}

theorem begins_iff : (execHostPrefix execHost).isPrefixOf host = true ↔ Begins host execHost := List.isPrefixOf_iff_prefix

theorem dotted_same (dotted : 46 ∈ execHost) (begins : Begins host execHost) : SameHost host execHost := by
  obtain ⟨rest,parts⟩ := begins
  rw [execHostPrefix,if_pos (contains_iff_mem.mpr dotted),append_assoc] at parts
  have free : 46 ∉ execHost.takeWhile (· ≠ 46) := fun inside => by simpa using mem_takeWhile_imp inside
  rw [← parts]
  exact takeWhile_sep free

theorem plain_begins (plain : 46 ∉ execHost) (same : SameHost host execHost) : Begins host execHost := by
  rw [Begins,execHostPrefix,if_neg (by simpa using plain)]
  have short : shortName execHost = execHost := takeWhile_free plain
  rw [← short,← same]
  exact List.takeWhile_prefix _

end Names

section Lines
variable {hosts : List Bytes} {execHost first : Bytes}

theorem flatten_newline (plain : ∀ host ∈ hosts, newline ∉ host) : newline ∉ hosts.flatten := by
  intro inside
  obtain ⟨host,listed,here⟩ := mem_flatten.mp inside
  exact plain host listed here

theorem lines_found (named : first ≠ []) (plain : ∀ host ∈ hosts, newline ∉ host)
    (found : hosts.find? (execHostPrefix execHost).isPrefixOf = some first) : byteLines [] (hostFile hosts execHost) =
      first :: if (hosts.filter (· ≠ first)).flatten = [] then [] else [(hosts.filter (· ≠ first)).flatten] := by
  have here : firstHost hosts execHost = first := by rw [firstHost,found]; rfl
  have rest : newline ∉ (hosts.filter (· ≠ first)).flatten := flatten_newline fun host inside => plain host (mem_of_mem_filter inside)
  have whole : hostFile hosts execHost = first ++ newline :: (hosts.filter (· ≠ first)).flatten := by simp [hostFile,here,named]
  rw [whole,byteLines_line (plain first (mem_of_find?_eq_some found)),byteLines_last rest]
  rfl

theorem lines_missing (named : ∀ host ∈ hosts, host ≠ []) (plain : ∀ host ∈ hosts, newline ∉ host)
    (missing : hosts.find? (execHostPrefix execHost).isPrefixOf = none) :
    byteLines [] (hostFile hosts execHost) = if hosts.flatten = [] then [] else [hosts.flatten] := by
  have here : firstHost hosts execHost = [] := by rw [firstHost,missing]; rfl
  have whole : hostFile hosts execHost = hosts.flatten := by
    have all : hosts.filter (· ≠ ([] : Bytes)) = hosts := filter_eq_self.mpr fun host inside => by simpa using named host inside
    simp only [hostFile,here,ne_eq,not_true_eq_false,if_false,nil_append]
    exact congrArg flatten all
  rw [whole,byteLines_last (flatten_newline plain)]
  rfl

theorem lines_short (named : ∀ host ∈ hosts, host ≠ []) (plain : ∀ host ∈ hosts, newline ∉ host) :
    (byteLines [] (hostFile hosts execHost)).length ≤ 2 := by
  cases found : hosts.find? (execHostPrefix execHost).isPrefixOf with
  | none =>
    rw [lines_missing named plain found]
    split <;> simp
  | some first =>
    rw [lines_found (named first (mem_of_find?_eq_some found)) plain found]
    split <;> simp

end Lines

section Writing
variable (hosts : Hosts) (execHost : Bytes)

theorem texts_named : ∀ host ∈ hosts.texts, host ≠ [] := by
  intro host inside
  obtain ⟨name,_,rfl⟩ := mem_map.mp inside
  exact name.some'

theorem texts_plain : ∀ host ∈ hosts.texts, newline ∉ host := by
  intro host inside
  obtain ⟨name,_,rfl⟩ := mem_map.mp inside
  exact name.plain

theorem complete_one (only : hosts.texts = [host]) : Complete hosts execHost := by
  have named := texts_named hosts
  have plain := texts_plain hosts
  rw [only] at named plain
  have lines : hostLines hosts execHost = [host] := by
    rw [hostLines,only]
    cases found : [host].find? (execHostPrefix execHost).isPrefixOf with
    | none =>
      rw [lines_missing named plain found]
      simp [named host mem_cons_self]
    | some first =>
      have same : first = host := mem_singleton.mp (mem_of_find?_eq_some found)
      subst same
      rw [lines_found (named first mem_cons_self) plain found]
      simp
  rw [Complete,lines,only]
  refine ⟨List.Perm.refl _,?_⟩
  rintro ⟨other,inside,same⟩
  exact ⟨other,by rw [mem_singleton.mp inside]; rfl,same⟩

theorem complete_two (both : hosts.texts = [one,two]) : Complete hosts execHost ↔ Writable execHost [one,two] := by
  have named := texts_named hosts
  have plain := texts_plain hosts
  have ordered : hosts.texts.Pairwise (· < ·) := pairwise_map.mpr hosts.ordered
  rw [both] at named plain ordered
  have apart : one ≠ two := fun same => by
    have less : one < two := (pairwise_cons.mp ordered).1 two mem_cons_self
    exact absurd (same ▸ less) (List.lt_irrefl two)
  have namedOne := named one List.mem_cons_self
  have namedTwo := named two (by simp)
  rw [Complete,hostLines,both]
  by_cases first : Begins one execHost
  · have found : [one,two].find? (execHostPrefix execHost).isPrefixOf = some one := List.find?_cons_of_pos (begins_iff.mpr first)
    have lines : byteLines [] (hostFile [one,two] execHost) = [one,two] := by
      rw [lines_found namedOne plain found]
      simp [Ne.symm apart,namedTwo]
    rw [lines]
    constructor
    · rintro ⟨_,own⟩
      refine ⟨.inl first,?_⟩
      rintro ⟨_,other,same⟩
      obtain ⟨host,head,found⟩ := own ⟨two,by simp,same⟩
      cases head
      exact other found
    · rintro ⟨_,fine⟩
      refine ⟨List.Perm.refl _,?_⟩
      rintro ⟨host,inside,same⟩
      by_cases own : SameHost one execHost
      · exact ⟨one,rfl,own⟩
      · rcases mem_cons.mp inside with rfl | inside
        · exact absurd same own
        · exact absurd ⟨first,own,mem_singleton.mp inside ▸ same⟩ fine
  · by_cases second : Begins two execHost
    · have found : [one,two].find? (execHostPrefix execHost).isPrefixOf = some two := by
        rw [List.find?_cons_of_neg (by rwa [begins_iff]),List.find?_cons_of_pos (begins_iff.mpr second)]
      have lines : byteLines [] (hostFile [one,two] execHost) = [two,one] := by
        rw [lines_found namedTwo plain found]
        simp [apart,namedOne]
      have same : (∃ host ∈ [one,two], SameHost host execHost) → SameHost two execHost := by
        rintro ⟨host,inside,same⟩
        by_cases dotted : 46 ∈ execHost
        · exact dotted_same dotted second
        · rcases mem_cons.mp inside with rfl | inside
          · exact absurd (plain_begins dotted same) first
          · exact mem_singleton.mp inside ▸ same
      rw [lines]
      refine iff_of_true ⟨List.Perm.swap one two [],fun some' => ⟨two,rfl,same some'⟩⟩ ⟨.inr second,fun wrong => first wrong.1⟩
    · have missing : [one,two].find? (execHostPrefix execHost).isPrefixOf = none := by
        rw [List.find?_cons_of_neg (by rwa [begins_iff]),List.find?_cons_of_neg (by rwa [begins_iff])]
        rfl
      have lines : byteLines [] (hostFile [one,two] execHost) = [one ++ two] := by
        rw [lines_missing named plain missing]
        simp [namedOne]
      rw [lines]
      refine iff_of_false (fun complete => ?_) (fun writable => writable.1.elim first second)
      exact absurd complete.1.length_eq (by simp)

end Writing

-- Each host gets its line, and the execution host the first, only for the one or two hosts of Writable.
theorem host_file_exact (hosts : Hosts) (execHost : Bytes) : Complete hosts execHost ↔ Writable execHost hosts.texts := by
  match shape : hosts.texts with
  | [] =>
    refine iff_of_true ⟨?_,?_⟩ trivial
    · rw [hostLines,shape]
      exact List.Perm.refl _
    · rw [shape]
      rintro ⟨host,inside,_⟩
      cases inside
  | [host] => exact iff_of_true (complete_one hosts execHost shape) trivial
  | [one,two] => exact complete_two hosts execHost shape
  | one :: two :: three :: rest =>
    refine iff_of_false (fun complete => ?_) id
    have short := @lines_short hosts.texts execHost (texts_named hosts) (texts_plain hosts)
    have same := complete.1.length_eq
    rw [hostLines] at same
    rw [same,shape] at short
    simp at short

def nid1 : HostName := ⟨ascii "nid1",by decide,by decide⟩

def nid10 : HostName := ⟨ascii "nid10",by decide,by decide⟩

def nid2 : HostName := ⟨ascii "nid2",by decide,by decide⟩

def threeHosts : Hosts := ⟨[nid1,nid10,nid2],by decide⟩

def twoHosts : Hosts := ⟨[nid1,nid2],by decide⟩

theorem hosts_run_together : hostFile threeHosts.texts (ascii "nid1") = ascii "nid1\nnid10nid2" ∧
    hostFile twoHosts.texts (ascii "nid1.local") = ascii "nid1nid2" ∧ ¬ Complete threeHosts (ascii "nid1") := by
  refine ⟨by decide,by decide,fun complete => ?_⟩
  have lines : hostLines threeHosts (ascii "nid1") = [ascii "nid1",ascii "nid10nid2"] := by decide
  have same := complete.1.length_eq
  rw [lines] at same
  exact absurd same (by decide)

end CommonTools.Pals
