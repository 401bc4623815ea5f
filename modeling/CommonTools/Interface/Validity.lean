import CommonTools.Interface.Moves

namespace CommonTools.Interface
open OrderedMaps Programs List Library
open Handles hiding add
open Transfer (World AddCall Delivery)

structure Library.Fresh (lib : Library) : Prop where
  apps : ∀ key, lib.appAlive key = true → key < lib.made
  sessions : ∀ ptr w, lib.world ptr = some w → ptr.session < lib.made
  appPtrs : ∀ appId key, lib.appHandles.list.find appId = some key → key < lib.made
  sessionPtrs : ∀ sid ptr, lib.sessionHandles.list.find sid = some ptr → ptr.app < lib.made ∧ ptr.session < lib.made
  manifestPtrs : ∀ mid ptr, lib.manifestHandles.list.find mid = some ptr →
    (ptr.session.app < lib.made ∧ ptr.session.session < lib.made) ∧
      ∀ w, lib.world ptr.session = some w → ptr.mani < w.manifests.length

structure Library.Linked (lib : Library) : Prop where
  standing : ∀ appId ∈ lib.standing, ∃ key, lib.appAt appId = some key
  single : ∀ appId other key, lib.appAt appId = some key → lib.appAt other = some key → appId = other
  sessions : ∀ sid appId ptr, (sid,appId) ∈ lib.sessionIds → lib.sessionAt sid = some ptr → lib.appAt appId = some ptr.app
  manifests : ∀ mid sid ptr, (mid,sid) ∈ lib.manifestIds → lib.manifestAt mid = some ptr → lib.sessionAt sid = some ptr.session
  spent : ∀ mid ∈ lib.spent, mid ∈ lib.manifestIds.map Prod.fst ∧ lib.manifestAt mid = none

structure Library.Kept (host : Transfer.Host) (lib : Library) : Prop where
  appNumbers : lib.appHandles.Numbered lib.appIds
  sessionNumbers : lib.sessionHandles.Numbered (lib.sessionIds.map Prod.fst)
  manifestNumbers : lib.manifestHandles.Numbered (lib.manifestIds.map Prod.fst)
  fresh : lib.Fresh
  orderly : ∀ ptr w, lib.world ptr = some w → Transfer.Orderly host w
  linked : lib.Linked

def Handles.Fewer (handles handles' : Handles κ) : Prop := handles' = handles ∨ ∃ id, handles' = handles.erased id

structure Library.Fewer (host : Transfer.Host) (lib lib' : Library) : Prop where
  made : lib'.made = lib.made
  given : lib'.appIds = lib.appIds ∧ lib'.sessionIds = lib.sessionIds ∧ lib'.manifestIds = lib.manifestIds ∧ lib'.spent = lib.spent
  standing : ∀ appId ∈ lib'.standing, appId ∈ lib.standing
  appHandles : lib.appHandles.Fewer lib'.appHandles
  sessionHandles : lib.sessionHandles.Fewer lib'.sessionHandles
  manifestHandles : lib.manifestHandles.Fewer lib'.manifestHandles
  apps : ∀ key, lib'.appAlive key = true → lib.appAlive key = true
  worlds : ∀ ptr w', lib'.world ptr = some w' → ∃ w, lib.world ptr = some w ∧ w.manifests.length ≤ w'.manifests.length ∧
    (Transfer.Orderly host w → Transfer.Orderly host w') ∧ ∀ mani ∈ w'.session.manifests, mani ∈ w.session.manifests
  keepsApp : ∀ appId key, lib.appAt appId = some key →
    (appId ∈ lib'.standing ∨ ∃ sid ptr, (sid,appId) ∈ lib.sessionIds ∧ lib'.sessionAt sid = some ptr ∧ ptr.app = key) →
    lib'.appAt appId = some key
  keepsSession : ∀ sid ptr, lib.sessionAt sid = some ptr →
    (∃ mid mani, (mid,sid) ∈ lib.manifestIds ∧ lib'.manifestAt mid = some ⟨ptr,mani⟩) → lib'.sessionAt sid = some ptr

section Keeping
variable {host : Transfer.Host} {frontend : FrontendClass} {lib lib' : Library}

namespace Handles
variable {handles handles' : Handles κ} {id : Handle}

theorem fewer_find (fewer : handles.Fewer handles') (found : handles'.list.find id = some object) : handles.list.find id = some object := by
  rcases fewer with rfl | ⟨gone,rfl⟩
  · exact found
  · simp only [erased,OrderedMap.find_erase] at found
    split at found
    · cases found
    · exact found

theorem fewer_numbered (fewer : handles.Fewer handles') (numbered : handles.Numbered ids) : handles'.Numbered ids := by
  rcases fewer with rfl | ⟨gone,rfl⟩
  · exact numbered
  · exact numbered_erased numbered

theorem fewer_held (fewer : handles.Fewer handles') (living : ∀ object, alive' object = true → alive object = true)
    (held : handles'.held alive' id = some object) : handles.held alive id = some object := by
  obtain ⟨found,alive'⟩ := held_iff.mp held
  exact held_iff.mpr ⟨fewer_find fewer found,living object alive'⟩

end Handles

theorem fewer_manifest (fewer : lib.Fewer host lib') (ptr : ManifestPtr) (alive : lib'.manifestAlive ptr = true) :
    lib.manifestAlive ptr = true := by
  obtain ⟨w',found,owned⟩ := (Option.any_eq_true _ _).mp alive
  obtain ⟨w,before,_,_,handles⟩ := fewer.worlds ptr.session w' found
  exact (Option.any_eq_true _ _).mpr ⟨w,before,decide_eq_true (handles _ (of_decide_eq_true owned))⟩

theorem fewer_session (fewer : lib.Fewer host lib') (ptr : SessionPtr) (alive : lib'.sessionAlive ptr = true) :
    lib.sessionAlive ptr = true := by
  obtain ⟨w',found⟩ := Option.isSome_iff_exists.mp alive
  obtain ⟨w,before,_⟩ := fewer.worlds ptr w' found
  exact Option.isSome_of_eq_some before

theorem fewer_fresh (fresh : lib.Fresh) (fewer : lib.Fewer host lib') : lib'.Fresh := by
  refine ⟨?_,?_,?_,?_,?_⟩
  · intro key alive
    rw [fewer.made]
    exact fresh.apps key (fewer.apps key alive)
  · intro ptr w' found
    obtain ⟨w,before,_⟩ := fewer.worlds ptr w' found
    rw [fewer.made]
    exact fresh.sessions ptr w before
  · intro appId key found
    rw [fewer.made]
    exact fresh.appPtrs appId key (fewer_find fewer.appHandles found)
  · intro sid ptr found
    rw [fewer.made]
    exact fresh.sessionPtrs sid ptr (fewer_find fewer.sessionHandles found)
  · intro mid ptr found
    obtain ⟨early,short⟩ := fresh.manifestPtrs mid ptr (fewer_find fewer.manifestHandles found)
    rw [fewer.made]
    refine ⟨early,fun w' found' => ?_⟩
    obtain ⟨w,before,longer,_⟩ := fewer.worlds ptr.session w' found'
    exact Nat.lt_of_lt_of_le (short w before) longer

theorem fewer_linked (linked : lib.Linked) (fewer : lib.Fewer host lib') : lib'.Linked := by
  obtain ⟨appIds,sessionIds,manifestIds,spent⟩ := fewer.given
  have apps : ∀ {appId key}, lib'.appAt appId = some key → lib.appAt appId = some key := fewer_held fewer.appHandles fewer.apps
  have sessions : ∀ {sid ptr}, lib'.sessionAt sid = some ptr → lib.sessionAt sid = some ptr :=
    fewer_held fewer.sessionHandles (fewer_session fewer)
  have manifests : ∀ {mid ptr}, lib'.manifestAt mid = some ptr → lib.manifestAt mid = some ptr :=
    fewer_held fewer.manifestHandles (fewer_manifest fewer)
  refine ⟨?_,?_,?_,?_,?_⟩
  · intro appId stands
    obtain ⟨key,held⟩ := linked.standing appId (fewer.standing appId stands)
    exact ⟨key,fewer.keepsApp appId key held (.inl stands)⟩
  · intro appId other key held held'
    exact linked.single appId other key (apps held) (apps held')
  · intro sid appId ptr given held
    rw [sessionIds] at given
    exact fewer.keepsApp appId ptr.app (linked.sessions sid appId ptr given (sessions held)) (.inr ⟨sid,ptr,given,held,rfl⟩)
  · intro mid sid ptr given held
    rw [manifestIds] at given
    exact fewer.keepsSession sid ptr.session (linked.manifests mid sid ptr given (manifests held)) ⟨mid,ptr.mani,given,held⟩
  · intro mid inside
    rw [spent] at inside
    obtain ⟨given,unheld⟩ := linked.spent mid inside
    refine ⟨by rw [manifestIds]; exact given,?_⟩
    cases held : lib'.manifestAt mid with
    | none => rfl
    | some ptr => rw [manifests held] at unheld; cases unheld

theorem kept_fewer (kept : lib.Kept host) (fewer : lib.Fewer host lib') : lib'.Kept host := by
  obtain ⟨appIds,sessionIds,manifestIds,_⟩ := fewer.given
  refine ⟨?_,?_,?_,fewer_fresh kept.fresh fewer,?_,fewer_linked kept.linked fewer⟩
  · rw [appIds]; exact fewer_numbered fewer.appHandles kept.appNumbers
  · rw [sessionIds]; exact fewer_numbered fewer.sessionHandles kept.sessionNumbers
  · rw [manifestIds]; exact fewer_numbered fewer.manifestHandles kept.manifestNumbers
  · intro ptr w' found
    obtain ⟨w,before,_,upkeep,_⟩ := fewer.worlds ptr w' found
    exact upkeep (kept.orderly ptr w before)

theorem fewer_refl (host : Transfer.Host) (lib : Library) : lib.Fewer host lib where
  made := rfl
  given := ⟨rfl,rfl,rfl,rfl⟩
  standing := fun _ stands => stands
  appHandles := .inl rfl
  sessionHandles := .inl rfl
  manifestHandles := .inl rfl
  apps := fun _ alive => alive
  worlds := fun _ w' found => ⟨w',found,Nat.le_refl _,id,fun _ owned => owned⟩
  keepsApp := fun _ _ held _ => held
  keepsSession := fun _ _ held _ => held

theorem appAt_same (apps : lib'.appAlive = lib.appAlive) (handles : lib'.appHandles = lib.appHandles) : lib'.appAt = lib.appAt := by
  funext appId
  rw [appAt,handles,apps]
  rfl

theorem fewer_lostApp (unheld : lib.appAt appId = none) : lib.Fewer host (lib.forgetApp appId) := by
  have same : (lib.forgetApp appId).appAt = lib.appAt := held_pruned unheld
  refine {fewer_refl host lib with appHandles := .inr ⟨appId,rfl⟩,keepsApp := ?_}
  intro other key held _
  rw [same]
  exact held

theorem fewer_lostSession (unheld : lib.sessionAt sid = none) : lib.Fewer host (lib.forgetSession sid) := by
  have same : (lib.forgetSession sid).sessionAt = lib.sessionAt := held_pruned unheld
  refine {fewer_refl host lib with sessionHandles := .inr ⟨sid,rfl⟩,keepsApp := fun _ _ held _ => held,keepsSession := ?_}
  intro other ptr held _
  rw [same]
  exact held

theorem fewer_lostManifest : lib.Fewer host (lib.forgetManifest mid) :=
  {fewer_refl host lib with manifestHandles := .inr ⟨mid,rfl⟩,keepsSession := fun _ _ held _ => held}

theorem fewer_released (idle : ∀ key object, lib.appAt appId = some key → lib.apps.find key = some object → object.sessions = .empty) :
    lib.Fewer host (lib.released appId) := by
  refine {fewer_refl host lib with standing := ?_,appHandles := .inr ⟨appId,rfl⟩,keepsApp := ?_}
  · exact fun other stands => (mem_filter.mp stands).1
  · intro other key held needed
    refine held_erased.trans ?_
    by_cases same : other = appId
    · subst same
      rcases needed with stands | ⟨sid,ptr,_,held',rfl⟩
      · have differs := (mem_filter.mp stands).2
        simp at differs
      · -- A session of the application is there, and there was to be none.
        obtain ⟨w,found⟩ := sessionAt_world held'
        obtain ⟨object,owner,filed⟩ := world_some found
        rw [idle ptr.app object held owner] at filed
        cases filed
    · rw [if_neg same]
      exact held

theorem dropped_alive : (lib.dropped key appId).appAlive other = (lib.appAlive other && decide (other ≠ key)) := by
  change ((lib.apps.erase key).find other).isSome = _
  by_cases same : other = key
  · simp [same]
  · simp [same,appAlive]

theorem dropped_world : (lib.dropped key appId).world ptr = if ptr.app = key then none else lib.world ptr := by
  change ((lib.apps.erase key).find ptr.app).bind _ = _
  by_cases same : ptr.app = key
  · simp [same]
  · simp [same,world]

theorem fewer_dropped (linked : lib.Linked) (held : lib.appAt appId = some key) : lib.Fewer host (lib.dropped key appId) := by
  have stays : ∀ other owner, lib.appAt other = some owner → owner ≠ key → (lib.dropped key appId).appAt other = some owner := by
    intro other owner held' differs
    obtain ⟨found,alive⟩ := held_iff.mp held'
    have apart : other ≠ appId := by
      intro same
      rw [same,held] at held'
      exact differs (Option.some.inj held').symm
    refine held_iff.mpr ⟨?_,by rw [dropped_alive,alive]; simpa using differs⟩
    simpa [dropped,released,forgetApp,withoutApp,erased,apart] using found
  refine {fewer_refl host lib with standing := ?_,appHandles := .inr ⟨appId,rfl⟩,apps := ?_,worlds := ?_,keepsApp := ?_,keepsSession := ?_}
  · exact fun other stands => (mem_filter.mp stands).1
  · intro other alive
    rw [dropped_alive,Bool.and_eq_true] at alive
    exact alive.1
  · intro ptr w' found
    rw [dropped_world] at found
    split at found
    · cases found
    · exact ⟨w',found,Nat.le_refl _,id,fun _ owned => owned⟩
  · intro other owner held' needed
    refine stays other owner held' fun same => ?_
    rcases needed with stands | ⟨sid,ptr,_,session,rfl⟩
    · have differs := (mem_filter.mp stands).2
      subst same
      simp [linked.single other appId owner held' held] at differs
    · obtain ⟨w,found⟩ := sessionAt_world session
      rw [dropped_world,if_pos same] at found
      cases found
  · intro sid ptr held' manifest
    obtain ⟨mid,mani,_,manifest⟩ := manifest
    obtain ⟨w,found,_⟩ := manifestAt_world manifest
    obtain ⟨filed,_⟩ := held_iff.mp held'
    exact held_iff.mpr ⟨filed,Option.isSome_of_eq_some found⟩

theorem fewer_closed (held : lib.sessionAt sid = some ptr) : lib.Fewer host (lib.closed ptr sid) := by
  have worlds : ∀ other, (lib.closed ptr sid).world other = if other = ptr then none else lib.world other := withoutSession_world ptr
  have apps : (lib.closed ptr sid).appAlive = lib.appAlive := revise_alive
  refine {fewer_refl host lib with sessionHandles := .inr ⟨sid,rfl⟩,apps := ?_,worlds := ?_,keepsApp := ?_,keepsSession := ?_}
  · intro key alive
    rwa [apps] at alive
  · intro other w' found
    rw [worlds] at found
    split at found
    · cases found
    · exact ⟨w',found,Nat.le_refl _,id,fun _ owned => owned⟩
  · intro appId key held' _
    rw [appAt_same apps rfl]
    exact held'
  · intro other owner held' manifest
    obtain ⟨mid,mani,_,manifest⟩ := manifest
    obtain ⟨w,found,_⟩ := manifestAt_world manifest
    have differs : owner ≠ ptr := by
      intro same
      rw [worlds,if_pos same] at found
      cases found
    have apart : other ≠ sid := by
      intro same
      rw [same,held] at held'
      exact differs (Option.some.inj held').symm
    obtain ⟨filed,_⟩ := held_iff.mp held'
    refine held_iff.mpr ⟨?_,Option.isSome_of_eq_some found⟩
    simpa [closed,forgetSession,withoutSession,revise,erased,apart] using filed

theorem fewer_withWorld (found : lib.world ptr = some w) (longer : w.manifests.length ≤ w'.manifests.length)
    (upkeep : Transfer.Orderly host w → Transfer.Orderly host w')
    (handles : ∀ mani ∈ w'.session.manifests, mani ∈ w.session.manifests) : lib.Fewer host (lib.withWorld ptr w') := by
  have apps : (lib.withWorld ptr w').appAlive = lib.appAlive := revise_alive
  refine {fewer_refl host lib with apps := ?_,worlds := ?_,keepsApp := ?_,keepsSession := ?_}
  · intro key alive
    rwa [apps] at alive
  · intro other after found'
    rw [withWorld_world found] at found'
    split at found'
    · rename_i same
      cases found'
      exact ⟨w,by rw [same]; exact found,longer,upkeep,handles⟩
    · exact ⟨after,found',Nat.le_refl _,id,fun _ owned => owned⟩
  · intro appId key held _
    rw [appAt_same apps rfl]
    exact held
  · intro sid owner held _
    obtain ⟨filed,alive⟩ := held_iff.mp held
    refine held_iff.mpr ⟨filed,?_⟩
    unfold sessionAlive
    rw [withWorld_world found]
    split
    · rfl
    · exact alive

theorem fewer_added (found : lib.world ptr = some w) :
    lib.Fewer host (lib.withWorld ptr ((Transfer.Call.add mani add).next host app w)) := by
  have parts : ((Transfer.Call.add mani add).next host app w).session = w.session ∧
      ((Transfer.Call.add mani add).next host app w).manifests.length = w.manifests.length := by
    change (after (Transfer.addTo host mani add w)).session = _ ∧ (after (Transfer.addTo host mani add w)).manifests.length = _
    unfold Transfer.addTo
    split
    · exact ⟨rfl,rfl⟩
    · split <;> exact ⟨rfl,length_set⟩
  refine fewer_withWorld found (Nat.le_of_eq parts.2.symm) (fun orderly => Transfer.next_orderly app orderly _) ?_
  intro other owned
  rwa [parts.1] at owned

theorem made_unheld (fresh : lib.Fresh) : lib.apps.find lib.made = none := by
  by_contra found
  exact Nat.lt_irrefl _ (fresh.apps lib.made (Option.isSome_iff_ne_none.mpr found))

theorem tracked_world (fresh : lib.Fresh) (app : Transfer.App) : (lib.tracked app true).world = lib.world := by
  funext ptr
  change ((lib.apps.insert lib.made ⟨app,.empty⟩).find ptr.app).bind _ = _
  by_cases same : ptr.app = lib.made
  · simp [world,same,made_unheld fresh]
  · simp [world,same]

theorem tracked_alive : (lib.tracked app true).appAlive key = (decide (key = lib.made) || lib.appAlive key) := by
  change ((lib.apps.insert lib.made ⟨app,.empty⟩).find key).isSome = _
  by_cases same : key = lib.made
  · simp [same]
  · simp [same,appAlive]

theorem fresh_later (fresh : lib.Fresh) : {lib with made := lib.made + 1}.Fresh := by
  refine ⟨?_,?_,?_,?_,?_⟩
  · exact fun key alive => Nat.lt_succ_of_lt (fresh.apps key alive)
  · exact fun ptr w found => Nat.lt_succ_of_lt (fresh.sessions ptr w found)
  · exact fun appId key found => Nat.lt_succ_of_lt (fresh.appPtrs appId key found)
  · intro sid ptr found
    exact (fresh.sessionPtrs sid ptr found).imp Nat.lt_succ_of_lt Nat.lt_succ_of_lt
  · intro mid ptr found
    exact (fresh.manifestPtrs mid ptr found).imp_left fun early => early.imp Nat.lt_succ_of_lt Nat.lt_succ_of_lt

theorem kept_tracked (kept : lib.Kept host) (room : lib.appHandles.Room) : (lib.tracked app true).Kept host := by
  have later := fresh_later kept.fresh
  have worlds := tracked_world kept.fresh app
  have apps : ∀ appId, (lib.tracked app true).appAt appId =
      if appId = lib.appHandles.lastId + 1 then some lib.made else lib.appAt appId := by
    intro appId
    refine held_added kept.appNumbers room (by rw [tracked_alive]; simp) fun key found => ?_
    have early := kept.fresh.appPtrs appId key found
    rw [tracked_alive]
    simp [Nat.ne_of_lt early]
  have sessions : (lib.tracked app true).sessionAt = lib.sessionAt := by
    funext sid
    exact held_congr fun ptr _ => by unfold sessionAlive; rw [worlds]
  have manifests : (lib.tracked app true).manifestAt = lib.manifestAt := by
    funext mid
    exact held_congr fun ptr _ => by unfold manifestAlive; rw [worlds]
  have old : ∀ {appId key}, lib.appAt appId = some key → (lib.tracked app true).appAt appId = some key := by
    intro appId key held
    rw [apps,if_neg (held_before kept.appNumbers room held)]
    exact held
  refine ⟨numbered_added kept.appNumbers room lib.made,kept.sessionNumbers,kept.manifestNumbers,?_,?_,?_⟩
  · refine {later with apps := ?_,sessions := ?_,appPtrs := ?_,manifestPtrs := ?_}
    · intro key alive
      rw [tracked_alive,Bool.or_eq_true,decide_eq_true_eq] at alive
      rcases alive with same | alive
      · exact Nat.lt_succ_of_le (Nat.le_of_eq same)
      · exact later.apps key alive
    · rw [worlds]; exact later.sessions
    · intro appId key found
      replace found := (find_added kept.appNumbers room).symm.trans found
      split at found
      · cases found; exact Nat.lt_succ_self _
      · exact later.appPtrs appId key found
    · rw [worlds]; exact later.manifestPtrs
  · rw [worlds]; exact kept.orderly
  · refine ⟨?_,?_,?_,?_,?_⟩
    · intro appId stands
      rcases mem_append.mp stands with before | last
      · obtain ⟨key,held⟩ := kept.linked.standing appId before
        exact ⟨key,old held⟩
      · rw [mem_singleton.mp last,apps,if_pos rfl]
        exact ⟨_,rfl⟩
    · -- Nothing that was there before leads to the new application.
      have unmade : ∀ appId, lib.appAt appId ≠ some lib.made := by
        intro appId held
        exact Nat.lt_irrefl _ (kept.fresh.appPtrs appId lib.made (held_iff.mp held).1)
      intro appId other key held held'
      rw [apps] at held held'
      split at held
      · rename_i same
        cases held
        split at held'
        · rename_i same'; rw [same,same']
        · exact absurd held' (unmade other)
      · split at held'
        · cases held'; exact absurd held (unmade appId)
        · exact kept.linked.single appId other key held held'
    · intro sid appId ptr given held
      rw [sessions] at held
      exact old (kept.linked.sessions sid appId ptr given held)
    · rw [sessions,manifests]; exact kept.linked.manifests
    · rw [manifests]; exact kept.linked.spent

theorem opened_world (owner : lib.apps.find key = some object) (appId : Handle) (stageName wlmType : String) (ptr : SessionPtr) :
    (lib.opened key appId stageName wlmType).world ptr =
      if ptr = ⟨key,lib.made⟩ then some (World.start object.app stageName wlmType) else lib.world ptr := by
  change (lib.revise (⟨key,lib.made⟩ : SessionPtr).app _).world ptr = _
  rw [world_revised fun _ _ => OrderedMap.find_insert,owner]
  rfl

theorem kept_opened (kept : lib.Kept host) (room : lib.sessionHandles.Room) (held : lib.appAt appId = some key)
    (stageName wlmType : String) : (lib.opened key appId stageName wlmType).Kept host := by
  have later := fresh_later kept.fresh
  obtain ⟨object,owner⟩ := Option.isSome_iff_exists.mp (held_iff.mp held).2
  have worlds := opened_world owner appId stageName wlmType
  have living : (lib.opened key appId stageName wlmType).appAlive = lib.appAlive := revise_alive
  have apps := appAt_same living rfl
  have same : ∀ ptr : SessionPtr, ptr.session < lib.made → (lib.opened key appId stageName wlmType).world ptr = lib.world ptr := by
    intro ptr early
    rw [worlds,if_neg fun same => Nat.ne_of_lt early (by rw [same])]
  have sessions : ∀ sid, (lib.opened key appId stageName wlmType).sessionAt sid =
      if sid = lib.sessionHandles.lastId + 1 then some ⟨key,lib.made⟩ else lib.sessionAt sid := by
    intro sid
    refine held_added kept.sessionNumbers room (by rw [sessionAlive,worlds]; simp) fun ptr found => ?_
    rw [sessionAlive,same ptr (kept.fresh.sessionPtrs sid ptr found).2]
    rfl
  have manifests : (lib.opened key appId stageName wlmType).manifestAt = lib.manifestAt := by
    funext mid
    refine held_congr fun ptr found => ?_
    rw [manifestAlive,same ptr.session (kept.fresh.manifestPtrs mid ptr found).1.2]
    rfl
  refine ⟨kept.appNumbers,numbered_paired kept.sessionNumbers room _ _,kept.manifestNumbers,?_,?_,?_⟩
  · refine {later with apps := ?_,sessions := ?_,sessionPtrs := ?_,manifestPtrs := ?_}
    · rw [living]; exact later.apps
    · intro ptr w found
      rw [worlds] at found
      split at found
      · rename_i new; rw [new]; exact Nat.lt_succ_self _
      · exact later.sessions ptr w found
    · intro sid ptr found
      replace found := (find_added kept.sessionNumbers room).symm.trans found
      split at found
      · cases found; exact ⟨later.apps key (held_iff.mp held).2,Nat.lt_succ_self _⟩
      · exact later.sessionPtrs sid ptr found
    · intro mid ptr found
      rw [same ptr.session (kept.fresh.manifestPtrs mid ptr found).1.2]
      exact later.manifestPtrs mid ptr found
  · intro ptr w found
    rw [worlds] at found
    split at found
    · cases found; exact Transfer.start_orderly object.app stageName wlmType
    · exact kept.orderly ptr w found
  · refine ⟨?_,?_,?_,?_,?_⟩
    · rw [apps]; exact kept.linked.standing
    · rw [apps]; exact kept.linked.single
    · intro sid other ptr given held'
      rw [sessions] at held'
      rw [apps]
      rcases mem_append.mp given with before | last
      · have differs := issued_before kept.sessionNumbers room (mem_map_of_mem before)
        rw [if_neg differs] at held'
        exact kept.linked.sessions sid other ptr before held'
      · cases mem_singleton.mp last
        rw [if_pos rfl] at held'
        cases held'
        exact held
    · intro mid sid ptr given held'
      rw [manifests] at held'
      have before := kept.linked.manifests mid sid ptr given held'
      rw [sessions,if_neg (held_before kept.sessionNumbers room before)]
      exact before
    · rw [manifests]; exact kept.linked.spent

theorem kept_created (kept : lib.Kept host) (room : lib.manifestHandles.Room) (held : lib.sessionAt sid = some ptr)
    (found : lib.world ptr = some w) : (lib.created ptr w sid).Kept host := by
  have worlds : ∀ other, (lib.created ptr w sid).world other = if other = ptr then some w.created else lib.world other :=
    withWorld_world found w.created
  have living : (lib.created ptr w sid).appAlive = lib.appAlive := revise_alive
  have apps := appAt_same living rfl
  have sessions : (lib.created ptr w sid).sessionAt = lib.sessionAt := by
    funext other
    refine held_congr fun owner _ => ?_
    rw [sessionAlive,worlds]
    split
    · rename_i same; rw [sessionAlive,same,found]; rfl
    · rfl
  have longer : w.created.manifests.length = w.manifests.length + 1 := by simp [World.created]
  have manifests : ∀ mid, (lib.created ptr w sid).manifestAt mid =
      if mid = lib.manifestHandles.lastId + 1 then some ⟨ptr,w.manifests.length⟩ else lib.manifestAt mid := by
    intro mid
    refine held_added kept.manifestNumbers room (by rw [manifestAlive,worlds]; simp [World.created]) fun mptr filed => ?_
    rw [manifestAlive,worlds]
    split
    · rename_i same
      have short := (kept.fresh.manifestPtrs mid mptr filed).2 w (by rw [same]; exact found)
      simp [manifestAlive,same,found,World.created,Nat.ne_of_lt short]
    · rfl
  refine ⟨kept.appNumbers,kept.sessionNumbers,numbered_paired kept.manifestNumbers room _ _,?_,?_,?_⟩
  · refine ⟨?_,?_,kept.fresh.appPtrs,kept.fresh.sessionPtrs,?_⟩
    · rw [living]; exact kept.fresh.apps
    · intro other after found'
      rw [worlds] at found'
      split at found'
      · rename_i same; rw [same]; exact kept.fresh.sessions ptr w found
      · exact kept.fresh.sessions other after found'
    · intro mid mptr filed
      replace filed := (find_added kept.manifestNumbers room).symm.trans filed
      split at filed
      · cases filed
        refine ⟨kept.fresh.sessionPtrs sid ptr (held_iff.mp held).1,fun after found' => ?_⟩
        rw [worlds,if_pos rfl] at found'
        cases found'
        rw [longer]
        exact Nat.lt_succ_self _
      · obtain ⟨early,short⟩ := kept.fresh.manifestPtrs mid mptr filed
        refine ⟨early,fun after found' => ?_⟩
        rw [worlds] at found'
        split at found'
        · rename_i same
          cases found'
          rw [longer]
          exact Nat.lt_succ_of_lt (short w (by rw [same]; exact found))
        · exact short after found'
  · intro other after found'
    rw [worlds] at found'
    split at found'
    · cases found'; exact Transfer.created_orderly (kept.orderly ptr w found)
    · exact kept.orderly other after found'
  · refine ⟨?_,?_,?_,?_,?_⟩
    · rw [apps]; exact kept.linked.standing
    · rw [apps]; exact kept.linked.single
    · rw [apps,sessions]; exact kept.linked.sessions
    · intro mid other mptr given held'
      rw [manifests] at held'
      rw [sessions]
      rcases mem_append.mp given with before | last
      · have differs := issued_before kept.manifestNumbers room (mem_map_of_mem before)
        rw [if_neg differs] at held'
        exact kept.linked.manifests mid other mptr before held'
      · cases mem_singleton.mp last
        rw [if_pos rfl] at held'
        cases held'
        exact held
    · intro mid inside
      obtain ⟨given,unheld⟩ := kept.linked.spent mid inside
      rw [manifests,if_neg (issued_before kept.manifestNumbers room given)]
      refine ⟨?_,unheld⟩
      change mid ∈ (lib.manifestIds ++ [_]).map Prod.fst
      rw [map_append]
      exact mem_append_left _ given

-- The adds a send or an exec makes before it takes the manifest go through.
def Ready (host : Transfer.Host) (app : Transfer.App) (w : World) : Transfer.Call → Prop
  | .sendManifest _ mani => ∀ m, w.manifests[mani]? = some m → m.empty = false →
    Returned ((Transfer.required app w).forM (Transfer.addTo host mani) w)
  | .execManifest _ mani daemon _ _ => Returned ((.binary daemon .Stage :: Transfer.required app w).forM (Transfer.addTo host mani) w)
  | _ => True

structure Shipped (host : Transfer.Host) (app : Transfer.App) (w : World) (mani : Nat) (shipment : Transfer.Call) : Prop where
  length : (shipment.next host app w).manifests.length = w.manifests.length
  fewer : ∀ other ∈ (shipment.next host app w).session.manifests, other ∈ w.session.manifests
  taken : Transfer.Orderly host w → mani ∈ w.session.manifests → Ready host app w shipment →
    mani ∉ (shipment.next host app w).session.manifests

theorem shipped_outcome (outcome : Transfer.Outcome host w mani calls delivery Args synchronous returned w')
    (same : shipment.next host app w = w')
    (ready : Ready host app w shipment → ∀ m, Transfer.Entered w mani m synchronous → Returned (calls.forM (Transfer.addTo host mani) w)) :
    Shipped host app w mani shipment := by
  obtain ⟨length,hands⟩ := Transfer.outcome_hands outcome
  refine ⟨by rw [same]; exact length,?_,?_⟩
  · intro other inside
    rw [same] at inside
    rcases hands with erased | ⟨kept,_⟩
    · rw [erased] at inside; exact mem_of_mem_erase inside
    · rw [kept] at inside; exact inside
  · intro orderly owned prepared
    rw [same]
    rcases hands with erased | ⟨_,unowned | ⟨m,message,entered,threw⟩⟩
    · rw [erased]; exact orderly.distinct.not_mem_erase
    · obtain ⟨m,present,_⟩ := orderly.owned mani owned
      rcases unowned with stranger | absent
      · exact absurd owned stranger
      · rw [present] at absent; cases absent
    · have went := ready prepared m entered
      rw [Transfer.adds_result host calls entered.present,threw] at went
      exact went.elim

theorem shipment_shipped {call : Call} (ships : call.shipment mani = some shipment) : Shipped host app w mani shipment := by
  cases call with
  | sendManifest mid delivery =>
    cases ships
    refine shipped_outcome Transfer.sendManifest_outcome rfl fun ready m entered => ?_
    exact ready m entered.present (entered.shipping rfl)
  | execToolDaemon mid delivery daemon daemonArgs envVars =>
    cases ships
    exact shipped_outcome (Transfer.execManifest_outcome host app delivery mani daemon daemonArgs envVars w) rfl fun ready _ _ => ready
  | _ => cases ships

theorem kept_shipped (kept : lib.Kept host) (found : lib.world ptr = some w) (shipped : Shipped host app w mani shipment) :
    (lib.withWorld ptr (shipment.next host app w)).Kept host :=
  kept_fewer kept (fewer_withWorld found (Nat.le_of_eq shipped.length.symm)
    (fun orderly => Transfer.next_orderly app orderly shipment) shipped.fewer)

theorem kept_handed (kept : lib.Kept host) (found : lib.world ptr = some w) (shipped : Shipped host app w mani shipment)
    : (lib.handed ptr (shipment.next host app w) mid returned).Kept host := by
  cases returned with
  | false => exact kept_shipped kept found shipped
  | true => exact kept_fewer (kept_shipped kept found shipped) fewer_lostManifest

theorem handed_gone (kept : lib.Kept host) (held : lib.manifestAt mid = some ptr) (found : lib.world ptr.session = some w)
    (shipped : Shipped host app w ptr.mani shipment) (ready : Ready host app w shipment) :
    (lib.handed ptr.session (shipment.next host app w) mid returned).manifestAt mid = none := by
  obtain ⟨w',found',owned⟩ := manifestAt_world held
  rw [found] at found'
  cases found'
  have taken := shipped.taken (kept.orderly ptr.session w found) owned ready
  have went : (lib.withWorld ptr.session (shipment.next host app w)).manifestAt mid = none := by
    change (lib.manifestHandles.list.find mid).filter _ = none
    rw [(held_iff.mp held).1]
    simp [Option.filter,manifestAlive,withWorld_world found,taken]
  cases returned with
  | false => exact went
  | true =>
    change ((lib.withWorld ptr.session (shipment.next host app w)).manifestHandles.erased mid).held _ mid = none
    rw [held_erased,if_pos rfl]

end Keeping

section Meeting
variable (host : Transfer.Host) (frontend : FrontendClass) (lib : Library)

def Library.Ready (mid : Handle) (shipment : Nat → Transfer.Call) : Prop :=
  ∀ ptr object w, lib.manifestAt mid = some ptr → lib.apps.find ptr.session.app = some object →
    lib.world ptr.session = some w → Interface.Ready host object.app w (shipment ptr.mani)

-- No launch through the proxy without a barrier, nothing released that has a
-- session, nothing sent or executed whose first adds throw, and ids to spare.
def Call.Meets : Call → Prop
  | .launchApp _ => frontend ≠ .EproxySLURM ∧ lib.appHandles.Room
  | .launchAppBarrier _ => lib.appHandles.Room
  | .registerApp _ => lib.appHandles.Room
  | .releaseApp appId _ => ∀ key object, lib.appAt appId = some key → lib.apps.find key = some object → object.sessions = .empty
  | .createSession _ _ _ => lib.sessionHandles.Room
  | .createManifest _ => lib.manifestHandles.Room
  | .sendManifest mid delivery => lib.Ready host mid (.sendManifest delivery)
  | .execToolDaemon mid delivery daemon daemonArgs envVars =>
    lib.Ready host mid fun mani => .execManifest delivery mani daemon daemonArgs envVars
  | _ => True

end Meeting

section Steps
variable {host : Transfer.Host} {frontend : FrontendClass} {lib : Library} {call : Call}

theorem meets_ready (meets : call.Meets host frontend lib) (hands : call.hands = some mid) (held : lib.manifestAt mid = some ptr)
    (owner : lib.apps.find ptr.session.app = some object) (found : lib.world ptr.session = some w)
    (ships : call.shipment ptr.mani = some shipment) : Ready host object.app w shipment := by
  cases call with
  | sendManifest other delivery | execToolDaemon other delivery daemon daemonArgs envVars =>
    cases hands; cases ships; exact meets ptr object w held owner found
  | _ => cases hands

theorem perform_kept (kept : lib.Kept host) (meets : call.Meets host frontend lib) :
    (after (call.perform host frontend lib)).Kept host ∧ ∀ mid, call.hands = some mid →
      (after (call.perform host frontend lib)).manifestIds = lib.manifestIds ∧
      (after (call.perform host frontend lib)).manifestAt mid = none := by
  have moved : Moves host frontend lib call (after (call.perform host frontend lib)) := perform_moves host frontend
  have nothing : ∀ {lib' : Library}, call.hands = none → ∀ mid, call.hands = some mid →
      lib'.manifestIds = lib.manifestIds ∧ lib'.manifestAt mid = none := by
    intro lib' idle mid hands
    rw [idle] at hands
    cases hands
  generalize after (call.perform host frontend lib) = lib' at moved
  cases moved with
  | same idle => exact ⟨kept,nothing idle⟩
  | lostApp idle unheld => exact ⟨kept_fewer kept (fewer_lostApp unheld),nothing idle⟩
  | lostSession idle unheld => exact ⟨kept_fewer kept (fewer_lostSession unheld),nothing idle⟩
  | lostManifest idle unheld => exact ⟨kept_fewer kept fewer_lostManifest,nothing idle⟩
  | launched =>
    rw [decide_eq_true meets.1]
    exact ⟨kept_tracked kept meets.2,nothing rfl⟩
  | stopped | registered => exact ⟨kept_tracked kept meets,nothing rfl⟩
  | dropped idle held => exact ⟨kept_fewer kept (fewer_dropped kept.linked held),nothing idle⟩
  | released => exact ⟨kept_fewer kept (fewer_released meets),nothing rfl⟩
  | opened held => exact ⟨kept_opened kept meets held _ _,nothing rfl⟩
  | closed idle held => exact ⟨kept_fewer kept (fewer_closed held),nothing idle⟩
  | created held found => exact ⟨kept_created kept meets held found,nothing rfl⟩
  | added held found owner => exact ⟨kept_fewer kept (fewer_added found),nothing rfl⟩
  | refused hands unheld =>
    refine ⟨kept_fewer kept fewer_lostManifest,fun other hands' => ⟨rfl,?_⟩⟩
    rw [hands] at hands'
    cases hands'
    exact held_erased.trans (if_pos rfl)
  | handed hands held found owner ships =>
    refine ⟨kept_handed kept found (shipment_shipped ships),fun other hands' => ?_⟩
    rw [hands] at hands'
    cases hands'
    refine ⟨?_,handed_gone kept held found (shipment_shipped ships) (meets_ready meets hands held owner found ships)⟩
    unfold handed
    split <;> rfl

theorem kept_start (host : Transfer.Host) : Library.start.Kept host := by
  exact ⟨numbered_start,numbered_start,numbered_start,
    ⟨nofun,nofun,nofun,nofun,nofun⟩,nofun,⟨nofun,nofun,nofun,nofun,nofun⟩⟩

theorem kept_next (kept : lib.Kept host) (meets : call.Meets host frontend lib) : (lib.next host frontend call).Kept host := by
  obtain ⟨kept',gone⟩ := perform_kept kept meets
  refine {kept' with fresh := {kept'.fresh with},linked := {kept'.linked with spent := ?_}}
  intro mid inside
  rcases mem_append.mp inside with before | handed
  · exact kept'.linked.spent mid before
  · obtain ⟨hands,given⟩ := Option.filter_eq_some_iff.mp (Option.mem_toList.mp handed)
    obtain ⟨same,unheld⟩ := gone mid hands
    refine ⟨?_,unheld⟩
    change mid ∈ (after (call.perform host frontend lib)).manifestIds.map Prod.fst
    rw [same]
    exact of_decide_eq_true given

end Steps

structure Library.Sound (lib : Library) : Prop where
  distinct : lib.appIds.Nodup ∧ (lib.sessionIds.map Prod.fst).Nodup ∧ (lib.manifestIds.map Prod.fst).Nodup
  standing : ∀ appId ∈ lib.standing, lib.tells (appIsValid appId (.ok true)) = true
  sessions : ∀ sid appId, (sid,appId) ∈ lib.sessionIds → lib.tells (sessionIsValid sid) = true →
    lib.tells (appIsValid appId (.ok true)) = true
  manifests : ∀ mid sid, (mid,sid) ∈ lib.manifestIds → lib.tells (manifestIsValid mid) = true →
    lib.tells (sessionIsValid sid) = true
  spent : ∀ mid ∈ lib.spent, lib.tells (manifestIsValid mid) = false

theorem tells_session {lib : Library} : lib.tells (sessionIsValid sid) = (lib.sessionAt sid).isSome := tells_ok sessionIsValid_eq

theorem tells_manifest {lib : Library} : lib.tells (manifestIsValid mid) = (lib.manifestAt mid).isSome := tells_ok manifestIsValid_eq

theorem kept_sound {lib : Library} (kept : lib.Kept host) : lib.Sound := by
  refine ⟨⟨numbered_nodup kept.appNumbers,numbered_nodup kept.sessionNumbers,
    numbered_nodup kept.manifestNumbers⟩,?_,?_,?_,?_⟩
  · intro appId stands
    obtain ⟨key,held⟩ := kept.linked.standing appId stands
    simp [appIsValid_running,held]
  · intro sid appId given valid
    rw [tells_session] at valid
    obtain ⟨ptr,held⟩ := Option.isSome_iff_exists.mp valid
    simp [appIsValid_running,kept.linked.sessions sid appId ptr given held]
  · intro mid sid given valid
    rw [tells_manifest] at valid
    obtain ⟨ptr,held⟩ := Option.isSome_iff_exists.mp valid
    simp [tells_session,kept.linked.manifests mid sid ptr given held]
  · intro mid inside
    simp [tells_manifest,(kept.linked.spent mid inside).2]

def clientRun (host : Transfer.Host) (frontend : FrontendClass) (calls : List Call) : Library :=
  calls.foldl (next host frontend) start

def ordinary : List Call :=
  [.launchAppBarrier (.ok Transfer.plainApp),.createSession 1 "stage" "wlm",.createManifest 1,.sendManifest 1 Transfer.plainDelivery]

def quietHost : Transfer.Host := Transfer.plainHost fun _ => none

-- Three ways out of it: the application a proxy has launched, a session whose
-- application has been released, and a manifest whose daemon is not to be found.
def proxied : List Call := [.launchApp (.ok Transfer.plainApp)]

def left : List Call :=
  [.launchAppBarrier (.ok Transfer.plainApp),.createSession 1 "stage" "wlm",.releaseApp 1 (.ok ())]

def missing : List Call :=
  [.launchAppBarrier (.ok Transfer.plainApp),.createSession 1 "stage" "wlm",.createManifest 1,
    .execToolDaemon 1 Transfer.plainDelivery "/t" none none]

def emptyHost : Transfer.Host := {quietHost with findPath := fun _ => none}

end CommonTools.Interface
