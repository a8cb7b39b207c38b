import Twilight.Cache.Model
import Twilight.Cache.Member
import Twilight.Cache.Bulk
import Twilight.Cache.Invariant
import Twilight.Cache.Entries
import Twilight.Cache.Shortcut
import Twilight.Cache.Embedded
import Twilight.Cache.Commute
import Twilight.Http.ErrorCode
import Twilight.Http.ApiError
import Twilight.Cache.Interleaving
import Twilight.Cache.Idempotent
import Twilight.Cache.Isolation
import Twilight.Cache.Schedules
import Twilight.Http.Decoding
import Twilight.Cache.Exclusive
import Twilight.Cache.Provenance
import Twilight.Cache.Reorder
