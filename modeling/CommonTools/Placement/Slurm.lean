import CommonTools.FeDaemon.Ranks
import CommonTools.Placement.Reports

namespace CommonTools.Placement.Slurm
open OrderedMaps FeDaemon List

structure StepLayout where
  numPEs : Nat
  nodes : List NodeLayout

def StepLayout.shift (pe_offset : Nat) (layout : StepLayout) : StepLayout :=
  {layout with nodes := layout.nodes.map (NodeLayout.shift pe_offset)}

def fetchStepLayout (next_pe_start : Nat) (result : OrderedMap CStr StepLayout) :
    List (CStr × StepLayout) → OrderedMap CStr StepLayout
  | [] => result
  | (id,layout) :: rest => fetchStepLayout (next_pe_start + layout.numPEs) (result.insert id (layout.shift next_pe_start)) rest

def allNodes (idLayouts : OrderedMap CStr StepLayout) : List NodeLayout := idLayouts.entries.flatMap fun row => row.2.nodes

def createNodeLayoutFile (idLayouts : OrderedMap CStr StepLayout) : Except String Bytes :=
  Placement.createNodeLayoutFile (allNodes idLayouts)

-- Where there is a pmi_attribs file, what it says is taken instead.
def findAppPids (pmiAttribs : Option (Option (List RankPid))) (hostname : CStr) (layoutFile pidFile : Bytes) :
    Option (List RankPid) :=
  match pmiAttribs with
  | some pids => pids
  | none => Placement.findAppPids domainTest hostname layoutFile pidFile

structure Component where
  id : CStr
  procs : Procs
  layout : StepLayout
  total : layout.numPEs = procs.length
  describes : Describes procs layout.nodes

structure Job where
  components : List Component
  distinct : (components.map Component.id).Nodup

namespace Job
variable (job : Job)

def procTable : Procs := job.components.flatMap Component.procs

def idLayouts : OrderedMap CStr StepLayout :=
  fetchStepLayout 0 .empty (job.components.map fun component => (component.id,component.layout))

end Job

def placed (next_pe_start : Nat) : List Component → List NodeLayout
  | [] => []
  | component :: rest => (component.layout.shift next_pe_start).nodes ++ placed (next_pe_start + component.layout.numPEs) rest

theorem insert_nodes {result : OrderedMap CStr StepLayout} {id : CStr} (absent : ∀ row ∈ result.entries, row.1 ≠ id)
    {layout : StepLayout} : (allNodes (result.insert id layout)).Perm (allNodes result ++ layout.nodes) := by
  have perm : (allNodes (result.insert id layout)).Perm (((id,layout) :: result.entries).flatMap fun row => row.2.nodes) :=
    (put_perm absent).flatMap_right _
  exact perm.trans perm_append_comm

theorem fetchStepLayout_nodes {components : List Component} {result : OrderedMap CStr StepLayout}
    (distinct : (components.map Component.id).Nodup) (absent : ∀ row ∈ result.entries, row.1 ∉ components.map Component.id) :
    (allNodes (fetchStepLayout next_pe_start result (components.map fun component => (component.id,component.layout)))).Perm
      (allNodes result ++ placed next_pe_start components) := by
  induction components generalizing next_pe_start result with
  | nil => simp [fetchStepLayout,placed]
  | cons component rest ih =>
    obtain ⟨first,distinct⟩ := nodup_cons.mp distinct
    have here : ∀ row ∈ result.entries, row.1 ≠ component.id := fun row filed same =>
      absent row filed (same ▸ mem_cons_self)
    have later : ∀ row ∈ (result.insert component.id (component.layout.shift next_pe_start)).entries,
        row.1 ∉ rest.map Component.id := by
      intro row filed
      rcases put_keys filed with same | before
      · exact same ▸ first
      · exact fun inside => absent row before (mem_cons_of_mem _ inside)
    refine (ih distinct later).trans ?_
    rw [placed,← append_assoc]
    exact (insert_nodes here).append_right _

theorem placed_shift : placed (start + offset) components = (placed start components).map (NodeLayout.shift offset) := by
  induction components generalizing start with
  | nil => rfl
  | cons component rest ih =>
    have nodes : (component.layout.shift (start + offset)).nodes =
        (component.layout.shift start).nodes.map (NodeLayout.shift offset) := by
      simp [StepLayout.shift,NodeLayout.shift,Nat.add_assoc]
    rw [placed,placed,map_append,nodes,← ih,Nat.add_right_comm]

theorem placed_accounts : Accounts (components.flatMap Component.procs) (placed 0 components) := by
  induction components with
  | nil => exact .nil
  | cons component rest ih =>
    have nodes : (component.layout.shift 0).nodes = component.layout.nodes := map_id _
    rw [placed,nodes,placed_shift,component.total]
    exact component.describes.accounts.append ih

theorem Job.accounts (job : Job) : Accounts job.procTable (allNodes job.idLayouts) :=
  placed_accounts.perm (fetchStepLayout_nodes job.distinct (by intro row filed; cases filed))

-- The two files serve every node of the job exactly if each entry counts ranks that
-- follow each other and is not taken for the entry of a node listed later.
theorem slurm_files_agree (job : Job) : Reported job.procTable (allNodes job.idLayouts) (findAppPids none) ↔
      Blocked domainTest job.procTable (allNodes job.idLayouts) :=
  reported_iff job.accounts

def computeOne : CStr := ⟨ascii "cn01",by decide⟩

def computeTwo : CStr := ⟨ascii "cn02",by decide⟩

def cyclicStep : Component where
  id := ⟨ascii "7+0",by decide⟩
  procs := [(computeOne,100),(computeTwo,200),(computeOne,101),(computeTwo,201)]
  layout := ⟨4,[⟨computeOne,2,0⟩,⟨computeTwo,2,1⟩]⟩
  total := rfl
  describes := ⟨by decide,fun host => by simp; tauto,by decide,by decide⟩

def soloStep (id : CStr) (pid : Pid) : Component where
  id := id
  procs := [(computeOne,pid)]
  layout := ⟨1,[⟨computeOne,1,0⟩]⟩
  total := rfl
  describes := ⟨by decide,fun host => by simp,by simp [hostPEs],by simp⟩

def cyclicJob : Job := ⟨[cyclicStep],by decide⟩

def sharedJob : Job := ⟨[soloStep ⟨ascii "7+0",by decide⟩ 100,soloStep ⟨ascii "7+1",by decide⟩ 101],by decide⟩

-- With ranks dealt out in turn a node reports a process of the other node, and
-- with two components on one node it reports those of the first component only.
theorem cyclic_shared_misreported : (∃ layoutFile, createNodeLayoutFile cyclicJob.idLayouts = .ok layoutFile ∧
      findAppPids none computeOne layoutFile (createPIDListFile (cyclicJob.procTable.map Prod.snd)) =
        some [(0,100),(1,200)] ∧ onHost cyclicJob.procTable computeOne = [(0,100),(2,101)]) ∧
    ∃ layoutFile, createNodeLayoutFile sharedJob.idLayouts = .ok layoutFile ∧
      findAppPids none computeOne layoutFile (createPIDListFile (sharedJob.procTable.map Prod.snd)) = some [(0,100)] ∧
        onHost sharedJob.procTable computeOne = [(0,100),(1,101)] :=
  ⟨⟨_,rfl,by decide +kernel,by decide +kernel⟩,⟨_,rfl,by decide +kernel,by decide +kernel⟩⟩

end CommonTools.Placement.Slurm
